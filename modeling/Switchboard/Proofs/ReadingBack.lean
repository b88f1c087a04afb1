import Switchboard.Proofs.ExactProjections
import Switchboard.Proofs.JsonReading

/-!
# Parts of a message that are read back

What fields select of a message is read back from the projection, unless a path leads on, through
something that is no record, from a place that was selected before. Such a path tears the earlier
part: a write puts a record where the message has a list.
-/
namespace Switchboard

namespace Path

theorem staysInRecords_of_append {before rest : List String} {v found : Value}
    (h : staysInRecords (before ++ rest) v = true) (hread : follow before v = .ok found) :
    staysInRecords rest found = true := by
  induction before generalizing v with
  | nil =>
    obtain rfl := Except.ok.inj hread
    exact h
  | cons k ks ih =>
    cases v with
    | record fields =>
      rw [List.cons_append, staysInRecords] at h
      rw [follow_cons] at hread
      exact ih h hread
    | _ => cases h

theorem Tears.ne {message : Value} {earlier later : List String} (h : Tears message earlier later) :
    earlier ≠ later := by
  obtain ⟨rest, found, -, hsplit, -, -, -, hleaves⟩ := h
  rintro rfl
  obtain rfl := List.self_eq_append_right.mp hsplit
  cases hleaves

/-- What a way tears at a place, it tears above that place. -/
theorem Tears.of_prefix {message found : Value} {place earlier later : List String}
    (h : Tears message earlier later) (hplace : place <+: earlier)
    (hread : follow place message = .ok found) : Tears message place later := by
  obtain ⟨rest, inner, value, rfl, hinner, hvalue, hthere, hleaves⟩ := h
  obtain ⟨ks, rfl⟩ := hplace
  refine ⟨ks ++ rest, found, value, by simp, hread, hvalue, hthere, ?_⟩
  rw [follow_append, hread] at hinner
  rw [← Bool.not_eq_true] at hleaves ⊢
  exact fun hstays => hleaves (staysInRecords_of_append hstays hinner)

end Path

/-- A part of a value that is read from JSON is one that could be. -/
theorem Value.OfJson.select {v w : Value} {k : String} (h : v.OfJson)
    (hselect : Path.select v k = .ok w) : w = .absent ∨ w.OfJson := by
  cases h with
  | record hfields =>
    obtain rfl := Except.ok.inj hselect
    rw [Value.lookupOrAbsent]
    cases hget : Record.get? _ k with
    | none => exact Or.inl rfl
    | some u => exact Or.inr (hfields _ (Record.mem_of_get?_eq_some hget))
  | @list items hitems =>
    obtain ⟨position, -, hitem⟩ := bind_eq_ok_iff.mp hselect
    cases position with
    | none => exact Or.inl (Except.ok.inj hitem).symm
    | some n =>
      obtain rfl := Except.ok.inj hitem
      rw [List.getD_eq_getElem?_getD]
      cases hn : items[n]? with
      | none => exact Or.inl rfl
      | some u => exact Or.inr (hitems u (List.mem_of_getElem? hn))
  | _ => exact Or.inl (Except.ok.inj hselect).symm

theorem Value.OfJson.follow {v w : Value} {ks : List String} (h : v.OfJson)
    (hread : Path.follow ks v = .ok w) : w = .absent ∨ w.OfJson := by
  induction ks generalizing v with
  | nil =>
    obtain rfl := Except.ok.inj hread
    exact Or.inr h
  | cons k ks ih =>
    rw [Path.follow_cons] at hread
    obtain ⟨u, hselect, hrest⟩ := bind_eq_ok_iff.mp hread
    rcases h.select hselect with rfl | hu
    · rw [Path.follow_absent] at hrest
      exact Or.inl (Except.ok.inj hrest).symm
    · exact ih hu hrest

namespace Projection

open Shared

variable {contents : List (Record Shared)} {message : Shared} {base : Nat}
  {places done : List (List String)} {place : List String}

/-- Some selected place, from a place of a projection on, is not read there as it is in the
message. -/
def Loses (message : Shared) (done : List (List String)) (place : List String) (s : Shared) :
    Prop :=
  ∃ ks, place ++ ks ∈ done ∧ Path.follow ks s.plain ≠ Path.follow (place ++ ks) message.plain

theorem loses_of_plain_ne {s t : Shared} (selected : place ∈ done)
    (read : follow place message = .ok s) (hne : t.plain ≠ s.plain) :
    Loses message done place t := by
  refine ⟨[], by simpa using selected, ?_⟩
  rw [List.append_nil, follow_plain read]
  exact fun hsame => hne (Except.ok.inj hsame)

/-- What is lost under a key of a record is lost in the record. -/
theorem Loses.record {l : Nat} {fields : Record Shared} {k : String} {t : Shared}
    (h : Loses message done (place ++ [k]) t) (hget : Record.get? fields k = some t)
    (hthere : t.isAbsent = false) : Loses message done place (.record l fields) := by
  obtain ⟨ks, hmem, hne⟩ := h
  refine ⟨k :: ks, by simpa using hmem, ?_⟩
  rw [← plain_follow, follow_record hget hthere, plain_follow]
  simpa using hne

/-- A write on from a place that was selected, through something that is no record, shows there. -/
theorem loses_of_selected {l : Nat} {fields : Record Shared} {first : String} {rest : List String}
    {value : Shared} (hfits : Fits contents (.record l fields)) (selected : place ∈ done)
    (read : follow place message = .ok (.record l fields))
    (hread : follow (place ++ first :: rest) message = .ok value) (hthere : value.isAbsent = false)
    (htears : Path.Tears message.plain place (place ++ first :: rest)) (next : Nat) :
    Loses message done place
      ((Shared.record l fields).apply (Shared.writeAt l fields first rest value next).1) := by
  obtain ⟨rest', found, -, hsplit, hfound, -, -, hleaves⟩ := htears
  obtain rfl := List.append_cancel_left hsplit
  obtain rfl := Except.ok.inj ((follow_plain read).symm.trans hfound)
  rw [follow_append read rfl] at hread
  obtain ⟨ks, own, hway, hintrudes⟩ := writeAt_intrudes hfits hleaves hread hthere next
  exact loses_of_plain_ne selected read
    ((show IsPart contents _ from Or.inl hfits).plain_apply_ne hway hintrudes)

/-- New records in a place that is no record are not read as what was there. -/
theorem loses_of_chain {k : String} {ks : List String} {s value : Shared}
    (hfits : Fits contents s) (selected : place ∈ done) (read : follow place message = .ok s)
    (hs : ∀ l fields, s ≠ .record l fields) (next : Nat) :
    Loses message done place (Shared.chain (k :: ks) value next).1 := by
  apply loses_of_plain_ne selected read
  intro hsame
  have hnone := hfits.fields?_plain hs
  rw [← hsame, Shared.chain, plain_record] at hnone
  cases hnone

theorem writeAt_over {l : Nat} {fields : Record Shared} {first k : String} {ks : List String}
    {s value : Shared} {next : Nat} (hget : Record.get? fields first = some s)
    (hs : ∀ l inner, s ≠ .record l inner) :
    (Shared.writeAt l fields first (k :: ks) value next).1 =
      ⟨l, first, (Shared.chain (k :: ks) value next).1⟩ := by
  rw [Shared.writeAt, hget]
  cases s with
  | record l inner => exact absurd rfl (hs l inner)
  | _ => rfl

/-- A write that tears what is shown loses some selected place. -/
theorem Shows.writeAt_torn {l : Nat} {fields : Record Shared} {first : String} {rest : List String}
    {value : Shared} {q : List String} (hground : Grounded contents message base done)
    (hover : Overlay message base places done place (.record l fields))
    (h : Shows message done place (.record l fields))
    (hread : follow (place ++ first :: rest) message = .ok value) (hthere : value.isAbsent = false)
    (hq : q ∈ done) (hplace : place <+: q)
    (htears : Path.Tears message.plain q (place ++ first :: rest)) (next : Nat) :
    Loses message done place
      ((Shared.record l fields).apply (Shared.writeAt l fields first rest value next).1) := by
  have hbegins : q <+: place ++ first :: rest := by
    obtain ⟨more, -, -, hsplit, -⟩ := htears
    exact ⟨more, hsplit.symm⟩
  -- What is lost is the first selected place on the way, which may lie above the one that is torn.
  induction rest generalizing l fields first place with
  | nil =>
    cases h with
    | taken selected read _ =>
      exact loses_of_selected (hground.parts place selected _ read) selected read hread hthere
        (htears.of_prefix hplace (follow_plain read)) next
    | made fresh _ _ =>
      have hne : q ≠ place := fun hself => fresh (hself ▸ hq)
      have hbelow := Path.append_singleton_prefix hplace hne hbegins
      exact absurd (hbegins.eq_of_length_le hbelow.length_le) htears.ne
  | cons k ks ih =>
    cases h with
    | taken selected read _ =>
      exact loses_of_selected (hground.parts place selected _ read) selected read hread hthere
        (htears.of_prefix hplace (follow_plain read)) next
    | made fresh keys hfields =>
      cases hover with
      | taken selected _ _ => exact absurd selected fresh
      | @made _ i _ here hparts =>
        have hne : q ≠ place := fun hself => fresh (hself ▸ hq)
        have hbelow := Path.append_singleton_prefix hplace hne hbegins
        have hsplit : place ++ first :: k :: ks = place ++ [first] ++ k :: ks := by simp
        rw [hsplit] at hread htears hbegins
        obtain ⟨t, hget⟩ := Option.isSome_iff_exists.mp ((keys first).mpr ⟨q, hq, hbelow⟩)
        have ht := hfields first t hget
        have hpart := hparts _ (Record.mem_of_get?_eq_some hget)
        by_cases hrecord : ∃ l' inner, t = .record l' inner
        · obtain ⟨l', inner, rfl⟩ := hrecord
          have hloses := ih hpart ht hread hbelow htears hbegins
          have hlabel : base + i ≠ (Shared.writeAt l' inner k ks value next).1.label := by
            have hgoes : (Shared.writeAt l' inner k ks value next).1.label < base ∨ _ :=
              hpart.goes hground.below hground.fits value next
            rcases hgoes with hlt | ⟨j, more, hj, htarget⟩
            · omega
            · have hij := ne_of_below here htarget
              omega
          rw [Shared.writeAt, hget]
          dsimp only
          rw [apply_record, if_neg hlabel]
          apply hloses.record
          · rw [Record.get?_map, hget, Option.map_some]
          · rw [apply_record]
            rfl
        · have hbare : ∀ l inner, t ≠ .record l inner := fun l inner ht =>
            hrecord ⟨l, inner, ht⟩
          rw [writeAt_over hget hbare, apply_record, if_pos rfl]
          cases ht with
          | made => exact absurd ⟨_, _, rfl⟩ hrecord
          | taken selected read _ =>
            apply (loses_of_chain (hground.parts _ selected _ read) selected read hbare next).record
            · exact Record.get?_put_self _ _ _
            · rfl

theorem View.Holds.write_torn {view : View} {p : Path} {value : Shared} {q : List String}
    (hground : Grounded contents message base done) (h : view.Holds message base done)
    (hread : message.read p = .ok value) (hthere : value.isAbsent = false) (hq : q ∈ done)
    (htears : Path.Tears message.plain q p.segments) :
    Loses message done [] (view.write p value).projected := by
  obtain ⟨⟨-, ⟨places, -, hover⟩, l, fields, hprojected⟩, hshown⟩ := h
  rw [hprojected] at hover hshown
  simp only [View.write, View.apply, hprojected]
  exact hshown.writeAt_torn hground hover hread hthere hq List.nil_prefix htears _

/-! ## Reading back -/

variable {specs : List FieldSpec} {items : List Value}

theorem keyedByTexts_of_ofJson {message : Value} (h : message.OfJson) (specs : List FieldSpec) :
    KeyedByTexts message specs := by
  intro p _ before _ _ entries hread
  rcases h.follow hread with habsent | hjson
  · cases habsent
  · cases hjson

theorem KeyedByTexts.mono {message : Value} {part : List FieldSpec}
    (h : KeyedByTexts message specs) (hpart : ∀ p ∈ selected part, p ∈ selected specs) :
    KeyedByTexts message part := fun p hp => h p ⟨hpart p hp.1, hp.2⟩

/-- What selected fields have in a message is read as it is there in the projection on them. -/
def IsReadBack (message : Value) (specs : List FieldSpec) (result : Value) : Prop :=
  ∀ p, Shown message specs p → Path.follow p result = Path.follow p message

theorem isReadBack_onFields {message : Value} (hkeyed : KeyedByTexts message specs)
    (hspared : (selected specs).Pairwise fun earlier later => ¬ Path.Tears message earlier later)
    (hclear : ∀ p ∈ selected specs, ¬ Path.Blocked p message) :
    ∃ result, onFields message specs = .ok result ∧ IsReadBack message specs result := by
  obtain ⟨done, s, hs, hshows, hdone⟩ := exists_shows hkeyed hspared hclear
  refine ⟨s.plain, hs, ?_⟩
  intro p hp
  have hread : follow p s = follow p (label message 0).1 :=
    hshows.follow_selected ((hdone p).mpr hp) List.nil_prefix (List.prefix_refl p)
  rw [← plain_follow, hread, plain_follow, plain_label]

/-- If what the first fields select is read back, however many they are, then none is blocked and
none tears what an earlier one selects. -/
theorem spared_of_isReadBack {message : Value} (hkeyed : KeyedByTexts message specs)
    (h : ∀ part, part <+: specs →
      ∃ result, onFields message part = .ok result ∧ IsReadBack message part result) :
    (∀ p ∈ selected specs, ¬ Path.Blocked p message) ∧
      (selected specs).Pairwise fun earlier later => ¬ Path.Tears message earlier later := by
  induction specs using List.reverseRecOn with
  | nil => simp [selected]
  | append_singleton specs spec ih =>
    have hselected : ∀ p ∈ selected specs, p ∈ selected (specs ++ [spec]) := fun p hp =>
      mem_selected_concat.mpr (Or.inl hp)
    obtain ⟨hclear, hspared⟩ := ih (hkeyed.mono hselected) fun part hpart =>
      h part (hpart.trans (List.prefix_append _ _))
    -- The last field meets a view from which everything before it is read back.
    obtain ⟨contents, view, done, hground, hrun, hholds, hdone⟩ :=
      exists_holds_label (hkeyed.mono hselected) hspared hclear
    obtain ⟨result, hresult, hback⟩ := h _ (List.prefix_refl _)
    obtain ⟨after, hconcat, rfl⟩ := onFields_eq_ok_iff.mp hresult
    obtain ⟨before, hbefore, hadd⟩ := addFields_concat_eq_none.mp hconcat
    obtain rfl := (Prod.mk.inj (hbefore.symm.trans hrun)).1
    have hplain := plain_label message 0
    constructor
    · intro p hp
      rcases mem_selected_concat.mp hp with hp | ⟨henabled, rfl⟩
      · exact hclear p hp
      · have hfree := not_blocked_of_addField hadd henabled
        rwa [hholds.unchanged, hplain] at hfree
    · apply pairwise_selected_concat.mpr
      refine ⟨hspared, ?_⟩
      intro henabled q hq htears
      obtain ⟨hearlier, v, hv, hthere⟩ := htears.resolves
      rw [← hplain] at hv htears
      obtain ⟨value, hread, rfl⟩ := follow_eq_ok_iff.mp hv
      rw [← isAbsent_eq] at hthere
      have hwrite := addField_eq_write henabled (hholds.unchanged.symm ▸ hread) hthere
      obtain rfl := Except.ok.inj (hwrite.symm.trans hadd)
      obtain ⟨ks, hks, hne⟩ := hholds.write_torn hground hread hthere
        ((hdone q).mpr ⟨hq, hearlier⟩) htears
      rw [List.nil_append] at hks hne
      have hshown := (hdone ks).mp hks
      exact hne (hplain.symm ▸ hback ks ⟨hselected ks hshown.1, hshown.2⟩)

/-- A list of fields has a projection from which what they select is read back. -/
def ReadsBack (message : Value) (items : List Value) (specs : List FieldSpec) : Prop :=
  ∃ result, ofValue message (.list items) = .ok (some result) ∧ IsReadBack message specs result

theorem readsBack_iff_onFields {message : Value} (hitems : StandFor items specs)
    (hne : items ≠ []) : ReadsBack message items specs ↔
      ∃ result, onFields message specs = .ok result ∧ IsReadBack message specs result := by
  rw [ReadsBack, ofValue_eq_onFields hitems hne]
  cases onFields message specs <;> simp [Except.map]

/-- What is selected of a message is read back after each of the fields of a list, from the first
one to the last, exactly if no selected path is blocked and none leads on, through something that
is no record, from a place that was selected before. -/
theorem readsBack_iff {message : Value} (hitems : StandFor items specs)
    (hkeyed : KeyedByTexts message specs) :
    (∀ n, 0 < n → n ≤ items.length → ReadsBack message (items.take n) (specs.take n)) ↔
      (∀ p ∈ selected specs, ¬ Path.Blocked p message) ∧
      (selected specs).Pairwise fun earlier later => ¬ Path.Tears message earlier later := by
  have hback : ∀ n, 0 < n → n ≤ items.length → (ReadsBack message (items.take n) (specs.take n) ↔
      ∃ result, onFields message (specs.take n) = .ok result ∧
        IsReadBack message (specs.take n) result) := by
    intro n hpos hle
    apply readsBack_iff_onFields (List.forall₂_take n hitems)
    rw [← List.length_pos_iff, List.length_take]
    omega
  constructor
  · intro h
    apply spared_of_isReadBack hkeyed
    intro part hpart
    rcases Nat.eq_zero_or_pos part.length with hzero | hpos
    · obtain rfl := List.length_eq_zero_iff.mp hzero
      exact ⟨_, rfl, fun p hp => absurd hp.1 List.not_mem_nil⟩
    · have hle := hpart.length_le
      rw [← hitems.length_eq] at hle
      rw [List.prefix_iff_eq_take.mp hpart]
      exact (hback _ hpos hle).mp (h _ hpos hle)
  · rintro ⟨hclear, hspared⟩ n hpos hle
    have hsublist : List.Sublist (selected (specs.take n)) (selected specs) :=
      ((List.take_sublist n specs).filter _).map _
    rw [hback n hpos hle]
    exact isReadBack_onFields (hkeyed.mono fun p hp => hsublist.subset hp)
      (hspared.sublist hsublist) fun p hp => hclear p (hsublist.subset hp)

/-- A message with a list in it. -/
def listMessage : Value := .record [("xs", .list [.text "a", .text "b"])]

theorem readsBack_iff_item_first :
    ReadsBack listMessage [.text "xs.0"] [{ path := "xs.0" }] ∧
      ReadsBack listMessage [.text "xs.0", .text "xs"]
        [{ path := "xs.0" }, { path := "xs" }] := by
  have hitems : StandFor [.text "xs.0", .text "xs"] [{ path := "xs.0" }, { path := "xs" }] :=
    .cons rfl (.cons rfl .nil)
  have hjson : listMessage.OfJson := by
    apply Value.OfJson.record
    intro f hf
    obtain rfl := List.mem_singleton.mp hf
    apply Value.OfJson.list
    intro v hv
    simp only [List.mem_cons, List.not_mem_nil, or_false] at hv
    rcases hv with rfl | rfl
    · exact .text _
    · exact .text _
  have hselected : selected [{ path := "xs.0" }, { path := "xs" }] = [["xs", "0"], ["xs"]] := by
    decide +kernel
  have hclear : ∀ p ∈ [["xs", "0"], ["xs"]], ¬ Path.Blocked p listMessage := by
    intro p hp
    rw [← Path.faults_follow, not_faults_iff]
    simp only [List.mem_cons, List.not_mem_nil, or_false] at hp
    rcases hp with rfl | rfl
    · exact ⟨_, rfl⟩
    · exact ⟨_, rfl⟩
  have hspared : List.Pairwise (fun earlier later => ¬ Path.Tears listMessage earlier later)
      [["xs", "0"], ["xs"]] := by
    apply List.pairwise_pair.mpr
    rintro ⟨rest, -, -, hsplit, -⟩
    cases hsplit
  rw [← hselected] at hclear hspared
  have hback := (readsBack_iff hitems (keyedByTexts_of_ofJson hjson _)).mpr ⟨hclear, hspared⟩
  exact ⟨hback 1 (by decide) (by decide), hback 2 (by decide) (by decide)⟩

/-- A list that is selected is lost when one of its items is selected after it. -/
theorem not_readsBack_torn :
    StandFor [.text "xs", .text "xs.0"] [{ path := "xs" }, { path := "xs.0" }] ∧
      ¬ ReadsBack listMessage [.text "xs", .text "xs.0"]
        [{ path := "xs" }, { path := "xs.0" }] := by
  refine ⟨.cons rfl (.cons rfl .nil), ?_⟩
  rintro ⟨result, hresult, hback⟩
  have hown : ofValue listMessage (.list [.text "xs", .text "xs.0"]) =
      .ok (some (.record [("xs", .record [("0", .text "a")])])) := by
    rfl
  obtain rfl := Option.some.inj (Except.ok.inj (hown.symm.trans hresult))
  have hread := hback ["xs"] ⟨by decide +kernel, .list [.text "a", .text "b"], rfl, rfl⟩
  cases hread

end Projection

end Switchboard
