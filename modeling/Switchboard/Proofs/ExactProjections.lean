import Switchboard.Proofs.EvaluationFaults
import Switchboard.Proofs.Intrusions
import Switchboard.Proofs.SelectedParts
import Switchboard.Proofs.Ways

/-!
# Exact projections

A projection on fields whose paths lead through records only holds what these paths select, at the
places where the message has it, and nothing else. Neither the order of the fields nor their
repetition counts.
-/
namespace Switchboard

namespace Path

/-- The way leads to something. -/
def Resolves (message : Value) (p : List String) : Prop :=
  ∃ v, follow p message = .ok v ∧ v.isAbsent = false

theorem Tears.resolves {message : Value} {earlier later : List String}
    (h : Tears message earlier later) : Resolves message earlier ∧ Resolves message later := by
  obtain ⟨rest, found, value, rfl, hfound, hvalue, hthere, -⟩ := h
  refine ⟨⟨found, hfound, ?_⟩, value, hvalue, hthere⟩
  cases found with
  | absent =>
    rw [follow_append, hfound] at hvalue
    obtain rfl := Except.ok.inj ((follow_absent rest).symm.trans hvalue)
    cases hthere
  | _ => rfl

/-- Every place on the way, before its end, holds a record. -/
def PassesRecords (message : Value) (p : List String) : Prop :=
  ∀ before, before <+: p → before ≠ p → ∃ fields, follow before message = .ok (.record fields)

theorem AvoidsLists.not_blocked {message : Value} {p : List String} (h : AvoidsLists message p) :
    ¬ Blocked p message := by
  rintro ⟨before, k, rest, items, rfl, hlist, -⟩
  exact h before (List.prefix_append _ _) (by simp) items hlist

theorem PassesRecords.staysInRecords {message found : Value} {before rest : List String}
    (h : PassesRecords message (before ++ rest)) (hfound : follow before message = .ok found) :
    Path.staysInRecords rest found = true := by
  induction rest generalizing before found with
  | nil => rfl
  | cons k ks ih =>
    obtain ⟨fields, hrecord⟩ := h before (List.prefix_append _ _) (by simp)
    obtain rfl := Except.ok.inj (hfound.symm.trans hrecord)
    have hnext : follow (before ++ [k]) message = .ok (Value.lookupOrAbsent fields k) := by
      rw [follow_append, hrecord]
      exact follow_singleton (.record fields) k
    rw [Path.staysInRecords]
    exact ih (by simpa using h) hnext

theorem PassesRecords.not_tears {message : Value} {earlier later : List String}
    (h : PassesRecords message later) : ¬ Tears message earlier later := by
  rintro ⟨rest, found, value, rfl, hfound, -, -, hleaves⟩
  rw [h.staysInRecords hfound] at hleaves
  cases hleaves

end Path

/-- Values that are alike up to the order of the keys in their records. -/
inductive Value.SameContent : Value → Value → Prop
  | refl (v : Value) : SameContent v v
  | record {fields others : Record Value}
    (keys : ∀ k, (Record.get? fields k).isSome = (Record.get? others k).isSome)
    (h : ∀ k v w, Record.get? fields k = some v → Record.get? others k = some w → SameContent v w) :
    SameContent (.record fields) (.record others)

namespace Shared

variable {contents : List (Record Shared)}

theorem follow_eq_ok_iff {ks : List String} {s : Shared} {v : Value} :
    Path.follow ks s.plain = .ok v ↔ ∃ t, follow ks s = .ok t ∧ t.plain = v := by
  rw [← plain_follow]
  cases follow ks s with
  | error f => simp [Except.map]
  | ok t => simp [Except.map]

theorem blocked_iff {p : Path} {s : Shared} :
    Path.Blocked p.segments s.plain ↔ Faults (s.read p) := by
  rw [← Path.faults_read, Path.read, ← plain_follow, read]
  cases follow p.segments s with
  | error f => simp [Faults, Except.map]
  | ok t => simp [Faults, Except.map]

theorem Fits.absent : Fits contents absent := .leaf trivial

/-- Labels that fit do so in every part of a value, except in a table. -/
theorem Fits.select {s t : Shared} {k : String} (h : Fits contents s)
    (hnone : ∀ entries, s.plain ≠ .table entries) (hselect : Shared.select s k = .ok t) :
    Fits contents t := by
  cases h with
  | @leaf v hatom =>
    rw [plain_leaf] at hnone
    have hv : Path.select v k = .ok .absent := by
      cases v with
      | table entries => exact absurd rfl (hnone entries)
      | list _ => exact hatom.elim
      | record _ => exact hatom.elim
      | _ => rfl
    rw [Shared.select, hv] at hselect
    obtain rfl := Except.ok.inj hselect
    exact Fits.absent
  | list hitems =>
    rcases select_list_cases hselect with rfl | hmem
    · exact Fits.absent
    · exact hitems t hmem
  | record _ hfields =>
    rcases select_record_cases hselect with rfl | hget
    · exact Fits.absent
    · exact hfields _ (Record.mem_of_get?_eq_some hget)

/-- Labels that fit do so at the end of a way that does not lead through a table. -/
theorem Fits.follow {ks : List String} {s t : Shared} (h : Fits contents s)
    (hnone : ∀ before, before <+: ks → before ≠ ks → ∀ entries,
      Path.follow before s.plain ≠ .ok (.table entries))
    (hread : Shared.follow ks s = .ok t) : Fits contents t := by
  induction ks generalizing s with
  | nil =>
    obtain rfl := Except.ok.inj hread
    exact h
  | cons k ks ih =>
    rw [Shared.follow] at hread
    obtain ⟨u, hselect, hrest⟩ := bind_eq_ok_iff.mp hread
    split at hrest
    · obtain rfl := Except.ok.inj hrest
      exact Fits.absent
    · rename_i hthere
      have hown : ∀ entries, s.plain ≠ .table entries := by
        intro entries hs
        exact hnone [] List.nil_prefix (List.cons_ne_nil k ks).symm entries (congrArg Except.ok hs)
      apply ih (h.select hown hselect) _ hrest
      intro before hbefore hne entries hentries
      apply hnone (k :: before) (by simpa using hbefore) (by simpa using hne) entries
      obtain ⟨v, hv, hplain⟩ := follow_eq_ok_iff.mp hentries
      apply follow_eq_ok_iff.mpr
      refine ⟨v, ?_, hplain⟩
      rw [Shared.follow, hselect]
      simp only [bind, Except.bind, hthere]
      exact hv

end Shared

namespace Projection

open Shared

variable {contents : List (Record Shared)} {message : Shared} {base : Nat}
  {done : List (List String)} {specs : List FieldSpec}

/-! ## A run of writes -/

theorem mem_selected_concat {spec : FieldSpec} {p : List String} :
    p ∈ selected (specs ++ [spec]) ↔
      p ∈ selected specs ∨ spec.enabled = true ∧ p = (Path.ofText spec.path).segments := by
  cases h : spec.enabled <;> simp [selected, h]

theorem pairwise_selected_concat {spec : FieldSpec} {R : List String → List String → Prop} :
    (selected (specs ++ [spec])).Pairwise R ↔ (selected specs).Pairwise R ∧
      (spec.enabled = true → ∀ p ∈ selected specs, R p (Path.ofText spec.path).segments) := by
  cases h : spec.enabled <;> simp [selected, h, List.pairwise_append]

theorem nil_notMem_selected : [] ∉ selected specs := by
  simp [selected, Path.segments]

theorem addFields_append (view : View) (specs more : List (Except Fault FieldSpec)) :
    addFields view (specs ++ more) =
      match addFields view specs with
      | (after, none) => addFields after more
      | (after, some f) => (after, some f) := by
  induction specs generalizing view with
  | nil => rfl
  | cons spec specs ih =>
    rw [List.cons_append, addFields, addFields]
    cases spec.bind (addField view) with
    | ok after => exact ih after
    | error f => rfl

/-- Fields that are added one after the other are added up to the last one, and then that one is. -/
theorem addFields_concat_eq_none {view after : View} {spec : FieldSpec} :
    addFields view ((specs ++ [spec]).map .ok) = (after, none) ↔
      ∃ before, addFields view (specs.map .ok) = (before, none) ∧
        addField before spec = .ok after := by
  rw [List.map_append, addFields_append]
  rcases addFields view (specs.map .ok) with ⟨before, _ | f⟩
  · cases h : addField before spec <;> simp [addFields, Except.bind, h]
  · simp

theorem addField_of_not_enabled {view : View} {spec : FieldSpec} (h : spec.enabled = false) :
    addField view spec = .ok view := by
  simp [addField, h, pure, Except.pure]

theorem addField_of_absent {view : View} {spec : FieldSpec} {value : Shared}
    (hread : view.message.read (Path.ofText spec.path) = .ok value)
    (habsent : value.isAbsent = true) : addField view spec = .ok view := by
  cases h : spec.enabled <;>
    simp [addField, h, hread, habsent, bind, Except.bind, pure, Except.pure]

/-- The path is selected, and it leads to something in the message. -/
def Shown (message : Value) (specs : List FieldSpec) (p : List String) : Prop :=
  p ∈ selected specs ∧ Path.Resolves message p

theorem shown_concat {message : Value} {spec : FieldSpec} {p : List String} :
    Shown message (specs ++ [spec]) p ↔ Shown message specs p ∨
      (spec.enabled = true ∧ p = (Path.ofText spec.path).segments) ∧ Path.Resolves message p := by
  rw [Shown, Shown, mem_selected_concat, or_and_right]

/-- A view of a message that is as it was, with a projection that shows what was added. -/
structure View.Holds (view : View) (message : Shared) (base : Nat) (done : List (List String)) :
    Prop extends view.IsOver message base done where
  shown : Shows message done [] view.projected

theorem holds_start (message : Shared) (base : Nat) :
    (start message [] base).Holds message base [] where
  toIsOver := isOver_start message [] base
  shown := .made (by simp) (by simp) (by simp)

theorem View.Holds.write {view : View} {p : Path} {value : Shared}
    (hground : Grounded contents message base done) (h : view.Holds message base done)
    (hread : message.read p = .ok value) (hthere : value.isAbsent = false)
    (hspared : ∀ q ∈ done, ¬ Path.Tears message.plain q p.segments) :
    (view.write p value).Holds message base (p.segments :: done) := by
  refine ⟨h.toIsOver.write hground.below hground.fits hread hthere fun q hq =>
    Path.intrudes_of_not_tears (hspared q hq), ?_⟩
  obtain ⟨⟨-, ⟨places, hnext, hover⟩, l, fields, hprojected⟩, hshown⟩ := h
  rw [hprojected] at hover hshown
  have hwritten := hshown.writeAt hground hover hread hthere hspared
  rw [← hnext] at hwritten
  simp only [View.write, View.apply, hprojected]
  exact hwritten

/-- A field that is not blocked, and does not tear what is shown, is added. -/
theorem View.Holds.addField {view : View} {spec : FieldSpec}
    (hground : Grounded contents message base done) (h : view.Holds message base done)
    (hdone : ∀ p, p ∈ done ↔ Shown message.plain specs p)
    (hclear : spec.enabled = true → ¬ Path.Blocked (Path.ofText spec.path).segments message.plain)
    (hspared : spec.enabled = true →
      ∀ q ∈ done, ¬ Path.Tears message.plain q (Path.ofText spec.path).segments) :
    ∃ after done', Projection.addField view spec = .ok after ∧ after.Holds message base done' ∧
      ∀ p, p ∈ done' ↔ Shown message.plain (specs ++ [spec]) p := by
  cases henabled : spec.enabled with
  | false =>
    refine ⟨view, done, addField_of_not_enabled henabled, h, ?_⟩
    intro p
    rw [hdone, shown_concat]
    simp [henabled]
  | true =>
    have hfree := hclear henabled
    rw [blocked_iff] at hfree
    obtain ⟨value, hread⟩ := not_faults_iff.mp hfree
    have hplain := follow_plain hread
    have hview := hread
    rw [← h.unchanged] at hview
    cases hthere : value.isAbsent with
    | true =>
      refine ⟨view, done, addField_of_absent hview hthere, h, ?_⟩
      intro p
      rw [hdone, shown_concat, or_iff_left]
      rintro ⟨⟨-, rfl⟩, v, hv, hv'⟩
      obtain rfl := Except.ok.inj (hplain.symm.trans hv)
      rw [← isAbsent_eq, hthere] at hv'
      cases hv'
    | false =>
      refine ⟨_, _, addField_eq_write henabled hview hthere,
        h.write hground hread hthere (hspared henabled), ?_⟩
      intro p
      have hown : (spec.enabled = true ∧ p = (Path.ofText spec.path).segments) ∧
          Path.Resolves message.plain p ↔ p = (Path.ofText spec.path).segments := by
        rw [henabled, eq_self, true_and, and_iff_left_of_imp]
        rintro rfl
        exact ⟨_, hplain, isAbsent_eq value ▸ hthere⟩
      rw [List.mem_cons, hdone, shown_concat, hown, or_comm]

/-- Fields none of which is blocked, and none of which tears what an earlier one selects, are all
added. -/
theorem exists_holds (hcontents : contents.length ≤ base) (hmessage : Fits contents message)
    (hfits : ∀ p, Shown message.plain specs p → ∀ s, follow p message = .ok s → Fits contents s)
    (hclear : ∀ p ∈ selected specs, ¬ Path.Blocked p message.plain)
    (hspared : (selected specs).Pairwise fun earlier later =>
      ¬ Path.Tears message.plain earlier later) :
    ∃ view done, addFields (start message [] base) (specs.map .ok) = (view, none) ∧
      view.Holds message base done ∧ ∀ p, p ∈ done ↔ Shown message.plain specs p := by
  induction specs using List.reverseRecOn with
  | nil => exact ⟨_, [], rfl, holds_start message base, by simp [Shown, selected]⟩
  | append_singleton specs spec ih =>
    obtain ⟨hpairs, hlast⟩ := pairwise_selected_concat.mp hspared
    obtain ⟨view, done, hrun, hholds, hdone⟩ := ih
      (fun p hp => hfits p (shown_concat.mpr (Or.inl hp)))
      (fun p hp => hclear p (mem_selected_concat.mpr (Or.inl hp))) hpairs
    have hground : Grounded contents message base done := ⟨hcontents, hmessage, fun q hq =>
      hfits q (shown_concat.mpr (Or.inl ((hdone q).mp hq)))⟩
    obtain ⟨after, done', hadd, hafter, hdone'⟩ := hholds.addField hground hdone
      (fun henabled => hclear _ (mem_selected_concat.mpr (Or.inr ⟨henabled, rfl⟩)))
      (fun henabled q hq => hlast henabled q ((hdone q).mp hq).1)
    exact ⟨after, done', addFields_concat_eq_none.mpr ⟨view, hrun, hadd⟩, hafter, hdone'⟩

/-- A field that is added is not blocked. -/
theorem not_blocked_of_addField {view after : View} {spec : FieldSpec}
    (h : addField view spec = .ok after) (henabled : spec.enabled = true) :
    ¬ Path.Blocked (Path.ofText spec.path).segments view.message.plain := by
  rw [blocked_iff, not_faults_iff]
  cases hread : view.message.read (Path.ofText spec.path) with
  | error f => simp [addField, henabled, hread, bind, Except.bind] at h
  | ok value => exact ⟨value, rfl⟩

theorem not_blocked_of_addFields {after : View} (hcontents : contents.length ≤ base)
    (hmessage : Fits contents message)
    (hspared : (selected specs).Pairwise fun earlier later =>
      ¬ Path.Tears message.plain earlier later)
    (h : addFields (start message [] base) (specs.map .ok) = (after, none)) :
    ∀ p ∈ selected specs, ¬ Path.Blocked p message.plain := by
  induction specs using List.reverseRecOn generalizing after with
  | nil => simp [selected]
  | append_singleton specs spec ih =>
    obtain ⟨view, hrun, hadd⟩ := addFields_concat_eq_none.mp h
    have hpairs := (pairwise_selected_concat.mp hspared).1
    have hspares : Spares message.plain specs := hpairs.imp Path.intrudes_of_not_tears
    have hunchanged := (addFields_message hmessage [] hcontents hspares).1
    rw [hrun] at hunchanged
    intro p hp
    rcases mem_selected_concat.mp hp with hp | ⟨henabled, rfl⟩
    · exact ih hpairs hrun p hp
    · rw [← hunchanged]
      exact not_blocked_of_addField hadd henabled

/-! ## What is found in a projection -/

variable {place ks : List String} {s : Shared}

theorem follow_record {l : Nat} {fields : Record Shared} {k : String} {t : Shared}
    (hget : Record.get? fields k = some t) (hthere : t.isAbsent = false) (ks : List String) :
    follow (k :: ks) (.record l fields) = follow ks t := by
  simp [follow, select, hget, bind, Except.bind, hthere]

theorem follow_of_none {l : Nat} {fields : Record Shared} {k : String}
    (hget : Record.get? fields k = none) (ks : List String) :
    follow (k :: ks) (.record l fields) = .ok absent := by
  simp [follow, select, hget, bind, Except.bind, pure, Except.pure, isAbsent, absent,
    Value.isAbsent]

/-- From a place that is selected on, a projection is read as the message is. -/
theorem Shows.follow_selected {p : List String} (h : Shows message done place s) (hp : p ∈ done)
    (hplace : place <+: p) (hbegins : p <+: place ++ ks) :
    follow ks s = follow (place ++ ks) message := by
  induction ks generalizing place s with
  | nil =>
    rw [List.append_nil] at hbegins ⊢
    obtain rfl := hplace.eq_of_length_le hbegins.length_le
    cases h with
    | made fresh _ _ => exact absurd hp fresh
    | taken _ read _ => exact read.symm
  | cons k ks ih =>
    cases h with
    | taken _ read there => exact (follow_append read there).symm
    | made fresh keys hfields =>
      have hne : p ≠ place := fun hself => fresh (hself ▸ hp)
      have hbelow := Path.append_singleton_prefix hplace hne hbegins
      obtain ⟨t, hget⟩ := Option.isSome_iff_exists.mp ((keys k).mpr ⟨p, hp, hbelow⟩)
      have ht := hfields k t hget
      have hsplit : place ++ k :: ks = place ++ [k] ++ ks := by simp
      rw [follow_record hget ht.there, hsplit]
      exact ih ht hbelow (hsplit ▸ hbegins)

/-- Above the places that are selected, a projection has records of the keys that lead on. -/
theorem Shows.follow_above {p : List String} (h : Shows message done place s) (hp : p ∈ done)
    (habove : place ++ ks <+: p) (hfree : ∀ q ∈ done, ¬ q <+: place ++ ks) :
    ∃ l fields, follow ks s = .ok (.record l fields) ∧
      ∀ k, (Record.get? fields k).isSome = true ↔ ∃ q ∈ done, place ++ ks ++ [k] <+: q := by
  induction ks generalizing place s with
  | nil =>
    rw [List.append_nil] at hfree ⊢
    cases h with
    | made _ keys _ => exact ⟨_, _, rfl, keys⟩
    | taken selected _ _ => exact absurd (List.prefix_refl _) (hfree place selected)
  | cons k ks ih =>
    cases h with
    | taken selected _ _ => exact absurd (List.prefix_append _ _) (hfree place selected)
    | made _ keys hfields =>
      have hsplit : place ++ k :: ks = place ++ [k] ++ ks := by simp
      rw [hsplit] at habove hfree ⊢
      obtain ⟨t, hget⟩ := Option.isSome_iff_exists.mp
        ((keys k).mpr ⟨p, hp, (List.prefix_append _ _).trans habove⟩)
      have ht := hfields k t hget
      rw [follow_record hget ht.there]
      exact ih ht habove hfree

/-- Anywhere else a projection has nothing. -/
theorem Shows.follow_elsewhere {k : String} (h : Shows message done place s)
    (hfree : ∀ q ∈ done, ¬ q <+: place ++ k :: ks ∧ ¬ place ++ k :: ks <+: q) :
    follow (k :: ks) s = .ok absent := by
  induction ks generalizing place s k with
  | nil =>
    cases h with
    | taken selected _ _ => exact absurd (List.prefix_append _ _) (hfree place selected).1
    | made _ keys _ =>
      apply follow_of_none
      rw [← Option.not_isSome_iff_eq_none, keys]
      rintro ⟨q, hq, hbelow⟩
      exact (hfree q hq).2 hbelow
  | cons k' ks ih =>
    cases h with
    | taken selected _ _ => exact absurd (List.prefix_append _ _) (hfree place selected).1
    | @made _ l fields _ _ hfields =>
      have hsplit : place ++ k :: k' :: ks = place ++ [k] ++ k' :: ks := by simp
      rw [hsplit] at hfree
      cases hget : Record.get? fields k with
      | none => exact follow_of_none hget _
      | some t =>
        have ht := hfields k t hget
        rw [follow_record hget ht.there]
        exact ih ht hfree

/-- The keys of a record are those that lead on from a place to what is shown. -/
def LeadsOn (shown : List String → Prop) (place : List String) (fields : Record Value) : Prop :=
  ∀ k, (Record.get? fields k).isSome = true ↔ ∃ p, shown p ∧ place ++ [k] <+: p

/-- A value holds, of a message, what some paths lead to, and nothing else: from the ends of these
paths on it is read as the message is, above them are records of the keys that lead there, and
nothing is anywhere else. -/
structure IsExact (message : Value) (shown : List String → Prop) (result : Value) : Prop where
  top : ∃ fields, result = .record fields ∧ LeadsOn shown [] fields
  selected : ∀ (q : Path) (p : List String), shown p → p <+: q.segments →
    Path.read result q = Path.read message q
  above : ∀ (q : Path) (p : List String), shown p → q.segments <+: p →
    (∀ p', shown p' → ¬ p' <+: q.segments) →
    ∃ fields, Path.read result q = .ok (.record fields) ∧ LeadsOn shown q.segments fields
  elsewhere : ∀ q : Path, (∀ p, shown p → ¬ p <+: q.segments ∧ ¬ q.segments <+: p) →
    Path.read result q = .ok .absent

theorem leadsOn_plain {shown : List String → Prop} {fields : Record Shared}
    (hdone : ∀ p, p ∈ done ↔ shown p)
    (hkeys : ∀ k, (Record.get? fields k).isSome = true ↔ ∃ p ∈ done, place ++ [k] <+: p) :
    LeadsOn shown place (fields.map fun f => (f.1, f.2.plain)) := by
  intro k
  rw [Record.get?_map, Option.isSome_map, hkeys]
  simp only [hdone]

theorem Shows.isExact {shown : List String → Prop} (h : Shows message done [] s)
    (hdone : ∀ p, p ∈ done ↔ shown p) (htop : [] ∉ done) : IsExact message.plain shown s.plain where
  top := by
    cases h with
    | made _ keys _ => exact ⟨_, plain_record _ _, leadsOn_plain hdone keys⟩
    | taken selected _ _ => exact absurd selected htop
  selected := by
    intro q p hp hbegins
    have hread : follow q.segments s = follow q.segments message :=
      h.follow_selected ((hdone p).mpr hp) List.nil_prefix hbegins
    rw [Path.read, Path.read, ← plain_follow, ← plain_follow, hread]
  above := by
    intro q p hp habove hfree
    obtain ⟨l, fields, hread, hkeys⟩ := h.follow_above ((hdone p).mpr hp) habove
      fun p' hp' => hfree p' ((hdone p').mp hp')
    refine ⟨_, ?_, leadsOn_plain hdone hkeys⟩
    rw [Path.read, ← plain_record l]
    exact follow_plain hread
  elsewhere := by
    intro q hfree
    have hread := h.follow_elsewhere fun p hp => hfree p ((hdone p).mp hp)
    rw [Path.read, ← plain_absent]
    exact follow_plain hread

theorem Shows.sameContent {done' : List (List String)} {s' : Shared}
    (h : Shows message done place s) (h' : Shows message done' place s')
    (hdone : ∀ p, p ∈ done ↔ p ∈ done') :
    s.plain.SameContent s'.plain := by
  induction h generalizing s' with
  | @made place l fields fresh keys _ ih =>
    cases h' with
    | taken selected _ _ => exact absurd ((hdone place).mpr selected) fresh
    | @made _ l' fields' _ keys' hfields' =>
      rw [plain_record, plain_record]
      apply Value.SameContent.record
      · intro k
        rw [Record.get?_map, Record.get?_map, Option.isSome_map, Option.isSome_map, Bool.eq_iff_iff,
          keys, keys']
        simp only [hdone]
      · intro k v w hv hw
        rw [Record.get?_map] at hv hw
        obtain ⟨t, ht, rfl⟩ := Option.map_eq_some_iff.mp hv
        obtain ⟨t', ht', rfl⟩ := Option.map_eq_some_iff.mp hw
        exact ih k t ht (hfields' k t' ht')
  | @taken place s selected read _ =>
    cases h' with
    | made fresh _ _ => exact absurd ((hdone place).mp selected) fresh
    | taken _ read' _ =>
      obtain rfl := Except.ok.inj (read.symm.trans read')
      exact .refl _

/-! ## Projections on lists of fields -/

/-- The items of a list stand for selected fields. -/
def StandFor (items : List Value) (specs : List FieldSpec) : Prop :=
  List.Forall₂ (fun v spec => (FieldSpec.readOrPath v).run "FieldSpec" = .ok spec) items specs

/-- The projection of a message on selected fields. -/
def onFields (message : Value) (specs : List FieldSpec) : Except Fault Value :=
  let (shared, next) := Shared.label message 0
  match addFields (start shared [] next) (specs.map .ok) with
  | (view, none) => .ok view.projected.plain
  | (_, some f) => .error f

theorem ofValue_eq_onFields (h : StandFor items specs) (hne : items ≠ []) (message : Value) :
    ofValue message (.list items) = (onFields message specs).map some := by
  have hspecs : specsOf (.list items) = .ok (specs.map .ok) := by
    apply congrArg Except.ok
    clear hne
    induction h with
    | nil => rfl
    | cons hfirst _ ih => rw [List.map_cons, List.map_cons, hfirst, ih]
  have hgiven : (Value.list items).given = true := by
    simpa [Value.given] using hne
  rw [ofValue, if_pos hgiven, hspecs, onFields]
  simp only [bind, Except.bind]
  rcases addFields _ _ with ⟨view, _ | f⟩ <;> rfl

theorem onFields_eq_ok_iff {message result : Value} :
    onFields message specs = .ok result ↔
      ∃ view, addFields (start (label message 0).1 [] (label message 0).2) (specs.map .ok) =
        (view, none) ∧ view.projected.plain = result := by
  rw [onFields]
  dsimp only
  rcases addFields (start (label message 0).1 [] (label message 0).2) (specs.map .ok) with
    ⟨view, _ | f⟩ <;> simp

/-- No selected path that leads to something does so through a table. In messages there are none. -/
def KeyedByTexts (message : Value) (specs : List FieldSpec) : Prop :=
  ∀ p, Shown message specs p → ∀ before, before <+: p → before ≠ p →
    ∀ entries, Path.follow before message ≠ .ok (.table entries)

/-- The view of a message that was labelled anew, after all fields were added. -/
theorem exists_holds_label {message : Value} (hkeyed : KeyedByTexts message specs)
    (hspared : (selected specs).Pairwise fun earlier later => ¬ Path.Tears message earlier later)
    (hclear : ∀ p ∈ selected specs, ¬ Path.Blocked p message) :
    ∃ contents view done, Grounded contents (label message 0).1 (label message 0).2 done ∧
      addFields (start (label message 0).1 [] (label message 0).2) (specs.map .ok) = (view, none) ∧
      view.Holds (label message 0).1 (label message 0).2 done ∧
      ∀ p, p ∈ done ↔ Shown message specs p := by
  obtain ⟨contents, hfits, hnext⟩ := fits_label message []
  rw [List.nil_append, List.length_nil] at hfits hnext
  have hplain := plain_label message 0
  have hparts : ∀ p, Shown (label message 0).1.plain specs p →
      ∀ s, follow p (label message 0).1 = .ok s → Fits contents s := by
    intro p hp s hread
    apply hfits.follow _ hread
    rw [hplain] at hp ⊢
    exact hkeyed p hp
  rw [← hplain] at hclear hspared
  obtain ⟨view, done, hrun, hholds, hdone⟩ :=
    exists_holds (Nat.le_of_eq hnext.symm) hfits hparts hclear hspared
  have hground : Grounded contents (label message 0).1 (label message 0).2 done :=
    ⟨Nat.le_of_eq hnext.symm, hfits, fun p hp => hparts p ((hdone p).mp hp)⟩
  rw [hplain] at hdone
  exact ⟨contents, view, done, hground, hrun, hholds, hdone⟩

/-- A projection whose paths do not tear what the earlier ones select shows what they select, if
none of them is blocked. -/
theorem exists_shows {message : Value} (hkeyed : KeyedByTexts message specs)
    (hspared : (selected specs).Pairwise fun earlier later => ¬ Path.Tears message earlier later)
    (hclear : ∀ p ∈ selected specs, ¬ Path.Blocked p message) :
    ∃ done s, onFields message specs = .ok s.plain ∧ Shows (label message 0).1 done [] s ∧
      ∀ p, p ∈ done ↔ Shown message specs p := by
  obtain ⟨-, view, done, -, hrun, hholds, hdone⟩ := exists_holds_label hkeyed hspared hclear
  exact ⟨done, view.projected, onFields_eq_ok_iff.mpr ⟨view, hrun, rfl⟩, hholds.shown, hdone⟩

/-- A projection whose paths do not tear what the earlier ones select has a result exactly if none
of them is blocked. -/
theorem onFields_isOk_iff {message : Value} (hkeyed : KeyedByTexts message specs)
    (hspared : (selected specs).Pairwise fun earlier later => ¬ Path.Tears message earlier later) :
    (∃ result, onFields message specs = .ok result) ↔
      ∀ p ∈ selected specs, ¬ Path.Blocked p message := by
  constructor
  · rintro ⟨result, hresult⟩
    obtain ⟨view, hrun, -⟩ := onFields_eq_ok_iff.mp hresult
    obtain ⟨contents, hfits, hnext⟩ := fits_label message []
    rw [List.nil_append, List.length_nil] at hfits hnext
    have hplain := plain_label message 0
    rw [← hplain] at hspared
    have hclear := not_blocked_of_addFields (Nat.le_of_eq hnext.symm) hfits hspared hrun
    rwa [hplain] at hclear
  · intro hclear
    obtain ⟨done, s, hresult, -⟩ := exists_shows hkeyed hspared hclear
    exact ⟨_, hresult⟩

theorem keyedByTexts_of_records {message : Value}
    (h : ∀ p, Shown message specs p → Path.PassesRecords message p) :
    KeyedByTexts message specs := by
  intro p hp before hbefore hne entries hentries
  obtain ⟨fields, hrecord⟩ := h p hp before hbefore hne
  cases hentries.symm.trans hrecord

theorem pairwise_of_records {message : Value}
    (h : ∀ p, Shown message specs p → Path.PassesRecords message p) :
    (selected specs).Pairwise fun earlier later => ¬ Path.Tears message earlier later := by
  apply List.pairwise_of_forall_mem_list
  intro earlier _ later hlater htears
  exact (h later ⟨hlater, htears.resolves.2⟩).not_tears htears

/-- If the selected paths that lead to something do so through records, then the projection on a
list of fields has a result exactly if no selected path is blocked, so in any case if none leads
through a list. The result is exact, and another list of fields, which selects the same paths in any
order and any number of times, has a result with the same content. -/
theorem projection_exact {message : Value} (hitems : StandFor items specs) (hne : items ≠ [])
    (hrecords : ∀ p, Shown message specs p → Path.PassesRecords message p) :
    ((∃ result, ofValue message (.list items) = .ok (some result)) ↔
      ∀ p ∈ selected specs, ¬ Path.Blocked p message) ∧
    ((∀ p ∈ selected specs, Path.AvoidsLists message p) →
      ∃ result, ofValue message (.list items) = .ok (some result)) ∧
    ∀ result, ofValue message (.list items) = .ok (some result) →
      IsExact message (Shown message specs) result ∧
      ∀ others specs', StandFor others specs' → others ≠ [] →
        (∀ p, p ∈ selected specs' ↔ p ∈ selected specs) →
        ∃ result', ofValue message (.list others) = .ok (some result') ∧
          result.SameContent result' := by
  have hkeyed := keyedByTexts_of_records hrecords
  have hspared := pairwise_of_records hrecords
  have hisOk := onFields_isOk_iff hkeyed hspared
  have hresult : ∀ result, ofValue message (.list items) = .ok (some result) ↔
      onFields message specs = .ok result := by
    intro result
    rw [ofValue_eq_onFields hitems hne]
    cases onFields message specs <;> simp [Except.map]
  simp only [hresult]
  refine ⟨hisOk, fun havoid => hisOk.mpr fun p hp => (havoid p hp).not_blocked, ?_⟩
  intro result hok
  have hclear := hisOk.mp ⟨result, hok⟩
  obtain ⟨done, s, hs, hshows, hdone⟩ := exists_shows hkeyed hspared hclear
  obtain rfl := Except.ok.inj (hs.symm.trans hok)
  constructor
  · have hexact := hshows.isExact hdone fun htop => nil_notMem_selected ((hdone []).mp htop).1
    rwa [plain_label] at hexact
  · intro others specs' hothers hne' hsame
    have hshown : ∀ p, Shown message specs' p ↔ Shown message specs p := by
      intro p
      rw [Shown, Shown, hsame]
    have hrecords' : ∀ p, Shown message specs' p → Path.PassesRecords message p := fun p hp =>
      hrecords p ((hshown p).mp hp)
    obtain ⟨done', s', hs', hshows', hdone'⟩ := exists_shows (keyedByTexts_of_records hrecords')
      (pairwise_of_records hrecords') fun p hp => hclear p ((hsame p).mp hp)
    refine ⟨s'.plain, ?_, hshows.sameContent hshows' ?_⟩
    · rw [ofValue_eq_onFields hothers hne', hs']
      rfl
    · intro p
      rw [hdone, hdone', hshown]

/-- A message with a profile in it. -/
def profileMessage : Value :=
  .record [("user", .record [("name", .text "A"), ("id", .int 7)]), ("tags", .list [.int 1])]

/-- Fields of which one is a part of another one, one is turned off and one is not there. -/
def profileFields : List Value :=
  [.text "user.name", .record [("path", .text "tags"), ("enabled", .bool false)], .text "user",
    .text "mail"]

def profileSpecs : List FieldSpec :=
  [{ path := "user.name" }, { path := "tags", enabled := false }, { path := "user" },
    { path := "mail" }]

/-- The same fields in another order, with one of them twice and without the one that is turned
off. -/
def rearrangedFields : List Value :=
  [.text "mail", .text "user", .text "user.name", .text "user"]

def rearrangedSpecs : List FieldSpec :=
  [{ path := "mail" }, { path := "user" }, { path := "user.name" }, { path := "user" }]

theorem projection_exact_profile : ∃ result result',
    ofValue profileMessage (.list profileFields) = .ok (some result) ∧
    IsExact profileMessage (Shown profileMessage profileSpecs) result ∧
    ofValue profileMessage (.list rearrangedFields) = .ok (some result') ∧
    result.SameContent result' := by
  have hfields : StandFor profileFields profileSpecs :=
    .cons rfl (.cons rfl (.cons rfl (.cons rfl .nil)))
  have hrearranged : StandFor rearrangedFields rearrangedSpecs :=
    .cons rfl (.cons rfl (.cons rfl (.cons rfl .nil)))
  have hselected : selected profileSpecs = [["user", "name"], ["user"], ["mail"]] := by
    decide +kernel
  have hagain : selected rearrangedSpecs = [["mail"], ["user"], ["user", "name"], ["user"]] := by
    decide +kernel
  have hway : ∀ p ∈ selected profileSpecs, ∀ before, before <+: p → before ≠ p →
      before = [] ∨ before = ["user"] := by
    intro p hp before hbefore hne
    rw [hselected] at hp
    rw [← List.mem_inits] at hbefore
    simp only [List.mem_cons, List.not_mem_nil, or_false] at hp
    rcases hp with rfl | rfl | rfl <;> simp at hbefore <;> tauto
  have hrecords : ∀ p, Shown profileMessage profileSpecs p →
      Path.PassesRecords profileMessage p := by
    intro p hp before hbefore hne
    rcases hway p hp.1 before hbefore hne with rfl | rfl
    · exact ⟨_, rfl⟩
    · exact ⟨_, rfl⟩
  have havoid : ∀ p ∈ selected profileSpecs, Path.AvoidsLists profileMessage p := by
    intro p hp before hbefore hne items hlist
    rcases hway p hp before hbefore hne with rfl | rfl <;> cases hlist
  have hsame : ∀ p, p ∈ selected rearrangedSpecs ↔ p ∈ selected profileSpecs := by
    intro p
    rw [hselected, hagain]
    simp only [List.mem_cons, List.not_mem_nil, or_false]
    tauto
  obtain ⟨-, hresult, hexact⟩ := projection_exact hfields (List.cons_ne_nil _ _) hrecords
  obtain ⟨result, hresult⟩ := hresult havoid
  obtain ⟨hown, hothers⟩ := hexact result hresult
  obtain ⟨result', hresult', hcontent⟩ :=
    hothers rearrangedFields _ hrearranged (List.cons_ne_nil _ _) hsame
  exact ⟨result, result', hresult, hown, hresult', hcontent⟩

end Projection

end Switchboard
