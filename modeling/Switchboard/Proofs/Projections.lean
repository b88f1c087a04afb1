import Switchboard.Proofs.Dispatch
import Switchboard.Proofs.SharedRecords

/-!
# Projections that leave the message as it is

A projection writes into a record of the message if one path selects that record and a later path
leads on from it. As long as the way on leads from record to record, the write finds its value in
place. Only a way that leads on through a list puts a new record where the list is, in the message
as in the projection.
-/
namespace Switchboard

namespace Path

/-- Every segment selects from a record. -/
def staysInRecords : List String → Value → Bool
  | [], _ => true
  | k :: ks, .record fields => staysInRecords ks (Value.lookupOrAbsent fields k)
  | _ :: _, _ => false

/-- Whether the first way leads to a record and the second one leads on from there, to some place,
through something that is no record. -/
def intrudes (message : Value) (earlier later : List String) : Bool :=
  earlier.isPrefixOf later &&
    match follow earlier message, follow later message with
    | .ok (.record fields), .ok found =>
      !found.isAbsent && !staysInRecords (later.drop earlier.length) (.record fields)
    | _, _ => false

/-- A way that leads on from a record, and does not intrude there, leads from record to record. -/
theorem staysInRecords_of_not_intrudes {message : Value} {earlier ks : List String}
    {fields : Record Value} {found : Value} (hearlier : follow earlier message = .ok (.record fields))
    (hlater : follow (earlier ++ ks) message = .ok found) (hthere : found.isAbsent = false)
    (h : intrudes message earlier (earlier ++ ks) = false) :
    staysInRecords ks (.record fields) = true := by
  have hbegins : earlier.isPrefixOf (earlier ++ ks) = true :=
    List.isPrefixOf_iff_prefix.mpr (List.prefix_append earlier ks)
  simpa [intrudes, hbegins, hearlier, hlater, hthere] using h

end Path

namespace Projection

open Shared

variable {contents : List (Record Shared)} {message : Shared} {base : Nat}
  {places done : List (List String)} {place : List String} {s : Shared}

/-- A value at a place of a projection. It is a record that was made for this place, whose label is
one of those from a base on, or it was taken from the same place of the message. -/
inductive Overlay (message : Shared) (base : Nat) (places done : List (List String)) :
    List String → Shared → Prop
  | made {place : List String} {i : Nat} {fields : Record Shared} (here : places[i]? = some place)
    (h : ∀ f ∈ fields, Overlay message base places done (place ++ [f.1]) f.2) :
    Overlay message base places done place (.record (base + i) fields)
  | taken {place : List String} {s : Shared} (selected : place ∈ done)
    (read : follow place message = .ok s) (there : s.isAbsent = false) :
    Overlay message base places done place s

theorem Overlay.mono {places' done' : List (List String)}
    (h : Overlay message base places done place s)
    (hplaces : ∃ more, places' = places ++ more) (hdone : ∀ p ∈ done, p ∈ done') :
    Overlay message base places' done' place s := by
  obtain ⟨more, rfl⟩ := hplaces
  induction h with
  | made here _ ih =>
    apply Overlay.made _ ih
    rw [List.getElem?_append_left (List.getElem?_eq_some_iff.mp here).1]
    exact here
  | taken selected read there => exact .taken (hdone _ selected) read there

/-- Records are made one for each segment. -/
theorem Overlay.chain {ks : List String} {value : Shared}
    (h : Overlay message base places done (place ++ ks) value) : ∃ more,
    Overlay message base (places ++ more) done place
        (Shared.chain ks value (base + places.length)).1 ∧
      (Shared.chain ks value (base + places.length)).2 = base + (places ++ more).length := by
  induction ks generalizing place places with
  | nil => exact ⟨[], by simpa [Shared.chain] using h, by simp [Shared.chain]⟩
  | cons k ks ih =>
    have hinner : Overlay message base (places ++ [place]) done ((place ++ [k]) ++ ks) value := by
      rw [List.append_assoc]
      exact h.mono ⟨[place], rfl⟩ fun _ hp => hp
    obtain ⟨more, hmade, hnext⟩ := ih hinner
    have hlength : base + (places ++ [place]).length = base + places.length + 1 := by
      rw [List.length_append, List.length_singleton, Nat.add_assoc]
    rw [hlength] at hmade hnext
    refine ⟨place :: more, ?_, ?_⟩
    · rw [Shared.chain]
      apply Overlay.made (by simp)
      intro f hf
      obtain rfl := List.mem_singleton.mp hf
      simpa using hmade
    · rw [Shared.chain, hnext]
      simp

/-- The write goes to a record that was made, and its value belongs at the place where it shows. -/
def Lands (message : Shared) (base : Nat) (places done : List (List String)) (w : Write) : Prop :=
  ∃ i place, w.label = base + i ∧ places[i]? = some place ∧
    Overlay message base places done (place ++ [w.key]) w.value

theorem Overlay.apply {w : Write} (hcontents : contents.length ≤ base)
    (hmessage : Fits contents message) (h : Overlay message base places done place s)
    (hw : Lands message base places done w) :
    Overlay message base places done place (s.apply w) := by
  obtain ⟨i, target, hlabel, hplace, hvalue⟩ := hw
  induction h with
  | @made place j fields here _ ih =>
    have hfields : ∀ f ∈ fields.map fun f => (f.1, f.2.apply w),
        Overlay message base places done (place ++ [f.1]) f.2 := by
      intro f hf
      obtain ⟨g, hg, rfl⟩ := List.mem_map.mp hf
      exact ih g hg
    rw [apply_record]
    apply Overlay.made here
    split
    · rename_i hsame
      have hij : i = j := by omega
      rw [hij, here] at hplace
      obtain rfl := Option.some.inj hplace
      intro f hf
      rcases Record.mem_put hf with rfl | hf
      · exact hvalue
      · exact hfields f hf
    · exact hfields
  | taken selected read there =>
    have hpart := (show IsPart contents message from Or.inl hmessage).follow read
    rw [hpart.apply_eq_self (Or.inl (by omega))]
    exact .taken selected read there

/-- A write that finds its value in place in the message does so in the projection. -/
theorem Overlay.apply_eq_self {w : Write} (hcontents : contents.length ≤ base)
    (hmessage : Fits contents message) (h : Overlay message base places done place s)
    (hw : w.IsIdle contents) : s.apply w = s := by
  induction h with
  | @made place j fields here _ ih =>
    have hsame : ∀ f ∈ fields, (f.1, f.2.apply w) = f := by
      intro f hf
      rw [ih f hf]
    have hne : base + j ≠ w.label := by
      obtain ⟨found, hfound, -⟩ := hw
      have hlt := (List.getElem?_eq_some_iff.mp hfound).1
      omega
    rw [apply_record, if_neg hne, List.map_congr_left hsame, List.map_id']
  | taken selected read there =>
    have hpart := (show IsPart contents message from Or.inl hmessage).follow read
    exact hpart.apply_eq_self (Or.inr hw)

/-- What a segment selects from a record is under that key. -/
theorem get?_of_follow {l : Nat} {fields : Record Shared} {k : String} {ks : List String}
    {value : Shared} (hread : follow (k :: ks) (.record l fields) = .ok value)
    (hthere : value.isAbsent = false) :
    ∃ s, Record.get? fields k = some s ∧ follow ks s = .ok value := by
  obtain ⟨u, hselect, hu, hrest⟩ := follow_cons_eq_ok hread hthere
  rcases select_record_cases hselect with rfl | hget
  · cases hu
  · exact ⟨u, hget, hrest⟩

/-- A way from record to record ends where its value is already. -/
theorem writeAt_idle {l : Nat} {fields : Record Shared} {first : String} {rest : List String}
    {value : Shared} (hfits : Fits contents (.record l fields))
    (hstays : Path.staysInRecords (first :: rest) (plain (.record l fields)) = true)
    (hread : follow (first :: rest) (.record l fields) = .ok value)
    (hthere : value.isAbsent = false) (next : Nat) :
    (writeAt l fields first rest value next).1.IsIdle contents ∧
      (writeAt l fields first rest value next).2 = next := by
  induction rest generalizing l fields first with
  | nil =>
    obtain ⟨s, hget, hs⟩ := get?_of_follow hread hthere
    obtain rfl := Except.ok.inj hs
    cases hfits with
    | record here _ => exact ⟨⟨fields, here, hget⟩, rfl⟩
  | cons k ks ih =>
    obtain ⟨s, hget, hs⟩ := get?_of_follow hread hthere
    have hfirst := hfits.get? hget
    rw [plain_record, Path.staysInRecords, Value.lookupOrAbsent, Record.get?_map, hget,
      Option.map_some, Option.getD_some] at hstays
    cases s with
    | leaf v =>
      cases hfirst with
      | leaf hatom =>
        rw [plain_leaf] at hstays
        cases v <;> first | exact hatom.elim | cases hstays
    | list items =>
      rw [plain_list] at hstays
      cases hstays
    | record l' inner =>
      rw [writeAt, hget]
      exact ih hfirst hstays hs

/-- A way on from a record of the message, where nothing intrudes. -/
theorem writeAt_taken {l : Nat} {fields : Record Shared} {first : String} {rest : List String}
    {value : Shared} (hmessage : Fits contents message)
    (hrecord : follow place message = .ok (.record l fields))
    (hread : follow (place ++ first :: rest) message = .ok value) (hthere : value.isAbsent = false)
    (hspared : Path.intrudes message.plain place (place ++ first :: rest) = false) (next : Nat) :
    (writeAt l fields first rest value next).1.IsIdle contents ∧
      (writeAt l fields first rest value next).2 = next := by
  have hfits : Fits contents (.record l fields) := by
    rcases (show IsPart contents message from Or.inl hmessage).follow hrecord with h | ⟨v, hv⟩
    · exact h
    · cases hv
  have hon : follow (first :: rest) (.record l fields) = .ok value := by
    rw [← follow_append hrecord rfl]
    exact hread
  have hplainRecord : Path.follow place message.plain =
      .ok (.record (fields.map fun f => (f.1, f.2.plain))) := by
    rw [← plain_follow, hrecord, ← plain_record l]
    rfl
  have hplainValue : Path.follow (place ++ first :: rest) message.plain = .ok value.plain := by
    rw [← plain_follow, hread]
    rfl
  apply writeAt_idle hfits _ hon hthere
  rw [plain_record]
  rw [isAbsent_eq] at hthere
  exact Path.staysInRecords_of_not_intrudes hplainRecord hplainValue hthere hspared

/-- A write of new records goes to the record that they are missing in. -/
theorem Overlay.lands_chain {i : Nat} {first : String} {ks : List String} {value : Shared}
    (here : places[i]? = some place)
    (h : Overlay message base places done (place ++ [first] ++ ks) value) : ∃ more,
    (Shared.chain ks value (base + places.length)).2 = base + (places ++ more).length ∧
      Lands message base (places ++ more) done
        ⟨base + i, first, (Shared.chain ks value (base + places.length)).1⟩ := by
  obtain ⟨more, hmade, hnext⟩ := h.chain
  refine ⟨more, hnext, i, place, rfl, ?_, hmade⟩
  rw [List.getElem?_append_left (List.getElem?_eq_some_iff.mp here).1]
  exact here

/-- A write to a projection finds its value in place in the message, or it goes to a record that was
made. -/
theorem Overlay.writeAt {l : Nat} {fields : Record Shared} {first : String} {rest : List String}
    {value : Shared} (hmessage : Fits contents message)
    (h : Overlay message base places done place (.record l fields))
    (hread : follow (place ++ first :: rest) message = .ok value) (hthere : value.isAbsent = false)
    (hspared : ∀ q ∈ done, Path.intrudes message.plain q (place ++ first :: rest) = false) :
    let written := Shared.writeAt l fields first rest value (base + places.length)
    (written.1.IsIdle contents ∧ written.2 = base + places.length) ∨
      ∃ more, written.2 = base + (places ++ more).length ∧
        Lands message base (places ++ more) ((place ++ first :: rest) :: done) written.1 := by
  induction rest generalizing l fields first place with
  | nil =>
    cases h with
    | @made _ i _ here _ =>
      right
      refine ⟨[], by simp [Shared.writeAt], i, place, rfl, by simpa using here, ?_⟩
      exact .taken List.mem_cons_self hread hthere
    | taken selected read _ =>
      exact Or.inl (writeAt_taken hmessage read hread hthere (hspared place selected) _)
  | cons k ks ih =>
    cases h with
    | @made _ i _ here hfields =>
      have hplace : place ++ first :: k :: ks = (place ++ [first]) ++ k :: ks := by simp
      rw [hplace] at hread hspared ⊢
      have hvalue : Overlay message base places ((place ++ [first] ++ k :: ks) :: done)
          (place ++ [first] ++ k :: ks) value := .taken List.mem_cons_self hread hthere
      have hchain := hvalue.lands_chain here
      rw [Shared.writeAt]
      cases hget : Record.get? fields first with
      | none => exact Or.inr hchain
      | some s =>
        cases s with
        | leaf v => exact Or.inr hchain
        | list items => exact Or.inr hchain
        | record l' inner =>
          exact ih (hfields _ (Record.mem_of_get?_eq_some hget)) hread hspared
    | taken selected read _ =>
      exact Or.inl (writeAt_taken hmessage read hread hthere (hspared place selected) _)

/-! ## Projecting -/

/-- A view of a message that is as it was, with what has been projected of it so far. -/
structure View.IsOver (view : View) (message : Shared) (base : Nat) (done : List (List String)) :
    Prop where
  unchanged : view.message = message
  overlaid : ∃ places, view.next = base + places.length ∧
    Overlay message base places done [] view.projected
  ofRecord : ∃ l fields, view.projected = .record l fields

theorem isOver_start (message : Shared) (others : List Shared) (next : Nat) :
    (start message others next).IsOver message next [] where
  unchanged := rfl
  overlaid := ⟨[[]], rfl, @Overlay.made message next [[]] [] [] 0 [] rfl nofun⟩
  ofRecord := ⟨next, [], rfl⟩

theorem View.IsOver.write {view : View} (hcontents : contents.length ≤ base)
    (hmessage : Fits contents message) (h : view.IsOver message base done) {p : Path} {value : Shared}
    (hread : message.read p = .ok value) (hthere : value.isAbsent = false)
    (hspared : ∀ q ∈ done, Path.intrudes message.plain q p.segments = false) :
    (view.write p value).IsOver message base (p.segments :: done) := by
  obtain ⟨hunchanged, ⟨places, hnext, hover⟩, l, fields, hprojected⟩ := h
  rw [hprojected] at hover
  have hfollow : follow ([] ++ p.first :: p.rest) message = .ok value := hread
  have hwritten := hover.writeAt hmessage hfollow hthere hspared
  rw [← hnext] at hwritten
  have hview : view.write p value = view.apply (writeAt l fields p.first p.rest value view.next).1
      (writeAt l fields p.first p.rest value view.next).2 := by
    rw [View.write, hprojected]
  rw [hview]
  generalize writeAt l fields p.first p.rest value view.next = written at hwritten
  have hrecord : ∃ l fields, view.projected.apply written.1 = .record l fields :=
    ⟨l, _, by rw [hprojected, apply_record]⟩
  rcases hwritten with ⟨hidle, hnext'⟩ | ⟨more, hnext', hlands⟩
  · refine ⟨?_, ⟨places, by rw [View.apply, hnext', hnext], ?_⟩, hrecord⟩
    · rw [View.apply, hunchanged]
      exact hmessage.apply_eq_self (Or.inr hidle)
    · rw [View.apply, hprojected, hover.apply_eq_self hcontents hmessage hidle]
      exact hover.mono ⟨[], by simp⟩ fun _ => List.mem_cons_of_mem _
  · refine ⟨?_, ⟨places ++ more, hnext', ?_⟩, hrecord⟩
    · rw [View.apply, hunchanged]
      obtain ⟨i, place, hlabel, -⟩ := hlands
      exact hmessage.apply_eq_self (Or.inl (by omega))
    · have hmono := hover.mono ⟨more, rfl⟩ fun q => List.mem_cons_of_mem p.segments
      rw [View.apply, hprojected]
      exact hmono.apply hcontents hmessage hlands

/-- The segments of the paths that are turned on. -/
def selected (specs : List FieldSpec) : List (List String) :=
  (specs.filter (·.enabled)).map fun spec => (Path.ofText spec.path).segments

theorem selected_cons {spec : FieldSpec} (h : spec.enabled = true) (specs : List FieldSpec) :
    selected (spec :: specs) = (Path.ofText spec.path).segments :: selected specs := by
  simp [selected, h]

theorem mem_selected_cons {spec : FieldSpec} {specs : List FieldSpec} {p : List String}
    (h : p ∈ selected specs) : p ∈ selected (spec :: specs) := by
  obtain ⟨s, hs, rfl⟩ := List.mem_map.mp h
  obtain ⟨hmem, henabled⟩ := List.mem_filter.mp hs
  exact List.mem_map_of_mem (List.mem_filter.mpr ⟨List.mem_cons_of_mem _ hmem, henabled⟩)

/-- No path that is turned on intrudes where an earlier one leads. -/
def Spares (message : Value) (specs : List FieldSpec) : Prop :=
  (selected specs).Pairwise fun earlier later => Path.intrudes message earlier later = false

instance (message : Value) (specs : List FieldSpec) : Decidable (Spares message specs) :=
  inferInstanceAs (Decidable (List.Pairwise _ _))

theorem Spares.of_cons {message : Value} {spec : FieldSpec} {specs : List FieldSpec}
    (h : Spares message (spec :: specs)) : Spares message specs := by
  cases henabled : spec.enabled with
  | true =>
    rw [Spares, selected_cons henabled] at h
    exact (List.pairwise_cons.mp h).2
  | false =>
    have hselected : selected (spec :: specs) = selected specs := by simp [selected, henabled]
    rwa [Spares, hselected] at h

theorem View.IsOver.addFields {view : View} {specs : List FieldSpec}
    (hcontents : contents.length ≤ base) (hmessage : Fits contents message)
    (h : view.IsOver message base done) (hspares : Spares message.plain specs)
    (hdone : ∀ p ∈ selected specs, ∀ q ∈ done, Path.intrudes message.plain q p = false) :
    ∃ done', (Projection.addFields view (specs.map .ok)).1.IsOver message base done' := by
  induction specs generalizing view done with
  | nil => exact ⟨done, h⟩
  | cons spec specs ih =>
    rw [List.map_cons, Projection.addFields]
    cases hadd : addField view spec with
    | error f => exact ⟨done, by simpa [Except.bind, hadd] using h⟩
    | ok after =>
      simp only [Except.bind, hadd]
      rcases addField_cases hadd with rfl | ⟨value, henabled, hread, hthere, rfl⟩
      · apply ih h hspares.of_cons
        intro p hp
        exact hdone p (mem_selected_cons hp)
      · rw [h.unchanged] at hread
        have hselected := selected_cons henabled specs
        rw [Spares, hselected] at hspares
        rw [hselected] at hdone
        obtain ⟨hfirst, hrest⟩ := List.pairwise_cons.mp hspares
        apply ih (h.write hcontents hmessage hread hthere (hdone _ List.mem_cons_self)) hrest
        intro p hp q hq
        rcases List.mem_cons.mp hq with rfl | hq
        · exact hfirst p hp
        · exact hdone p (List.mem_cons_of_mem _ hp) q hq

/-- A projection whose paths spare the message leaves it as it is. -/
theorem addFields_message {specs : List FieldSpec} (hmessage : Fits contents message)
    (others : List Shared) {next : Nat} (hnext : contents.length ≤ next)
    (hspares : Spares message.plain specs) :
    (addFields (start message others next) (specs.map .ok)).1.message = message ∧
      next ≤ (addFields (start message others next) (specs.map .ok)).1.next := by
  obtain ⟨done, hover⟩ := (isOver_start message others next).addFields hnext hmessage hspares nofun
  obtain ⟨places, hplaces, -⟩ := hover.overlaid
  exact ⟨hover.unchanged, by omega⟩

end Projection

end Switchboard
