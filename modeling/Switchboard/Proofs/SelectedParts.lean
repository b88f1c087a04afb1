import Mathlib.Data.List.Infix
import Switchboard.Proofs.Projections

/-!
# What a projection shows

A projection shows, at each place that a selected path leads to, the part of the message that is
there, and above these places records of the keys that lead on to them. A write keeps it so, unless
its path leads on, through something that is no record, from a place that was selected before.
-/
namespace Switchboard

namespace Path

/-- The second way leads on, to some place, from where the first one leads, and it does so through
something that is no record. -/
def Tears (message : Value) (earlier later : List String) : Prop :=
  ∃ rest found value, later = earlier ++ rest ∧ follow earlier message = .ok found ∧
    follow later message = .ok value ∧ value.isAbsent = false ∧ staysInRecords rest found = false

theorem intrudes_of_not_tears {message : Value} {earlier later : List String}
    (h : ¬ Tears message earlier later) : intrudes message earlier later = false := by
  by_contra hne
  rw [Bool.not_eq_false] at hne
  obtain ⟨hbegins, hmatch⟩ := Bool.and_eq_true_iff.mp hne
  obtain ⟨rest, rfl⟩ := List.isPrefixOf_iff_prefix.mp hbegins
  rw [List.drop_left] at hmatch
  split at hmatch
  · rename_i fields found hearlier hlater
    obtain ⟨hthere, hleaves⟩ : found.isAbsent = false ∧
        staysInRecords rest (.record fields) = false := by simpa using hmatch
    exact h ⟨rest, _, found, rfl, hearlier, hlater, hthere, hleaves⟩
  · cases hmatch

theorem staysInRecords_of_fields?_none {v : Value} (h : v.fields? = none) (k : String)
    (ks : List String) : staysInRecords (k :: ks) v = false := by
  cases v with
  | record fields => cases h
  | _ => rfl

/-- Below a place, a way leads on by one key. -/
theorem append_singleton_prefix_iff {place rest : List String} {k first : String} :
    place ++ [k] <+: place ++ first :: rest ↔ k = first := by
  rw [List.prefix_append_right_inj, List.cons_prefix_cons]
  simp

/-- A way that leads on from a place, along another one, takes its first key. -/
theorem append_singleton_prefix {place p rest : List String} {k : String} (hplace : place <+: p)
    (hne : p ≠ place) (h : p <+: place ++ k :: rest) : place ++ [k] <+: p := by
  obtain ⟨more, rfl⟩ := hplace
  cases more with
  | nil => simp at hne
  | cons k' more =>
    obtain ⟨rfl, -⟩ := List.cons_prefix_cons.mp ((List.prefix_append_right_inj place).mp h)
    exact append_singleton_prefix_iff.mpr rfl

end Path

namespace Shared

/-- A write goes to a record that has its label. -/
theorem Fits.writeAt_label {contents : List (Record Shared)} {l : Nat} {fields : Record Shared}
    {first : String} {rest : List String} (h : Fits contents (.record l fields)) (value : Shared)
    (next : Nat) : (writeAt l fields first rest value next).1.label < contents.length := by
  have hown : l < contents.length := by
    cases h with
    | record here _ => exact (List.getElem?_eq_some_iff.mp here).1
  induction rest generalizing l fields first with
  | nil => exact hown
  | cons k ks ih =>
    rw [writeAt]
    split
    · rename_i l' inner hget
      have hinner := h.get? hget
      apply ih hinner
      cases hinner with
      | record here _ => exact (List.getElem?_eq_some_iff.mp here).1
    · exact hown

theorem Fits.fields?_plain {contents : List (Record Shared)} {s : Shared} (h : Fits contents s)
    (hs : ∀ l fields, s ≠ .record l fields) : s.plain.fields? = none := by
  cases h with
  | leaf hatom =>
    rw [plain_leaf]
    rename_i v
    cases v with
    | record fields => exact hatom.elim
    | _ => rfl
  | list _ =>
    rw [plain_list]
    rfl
  | record _ _ => exact absurd rfl (hs _ _)

/-- What is read at the end of a way, as a plain value. -/
theorem follow_plain {ks : List String} {s t : Shared} (h : follow ks s = .ok t) :
    Path.follow ks s.plain = .ok t.plain := by
  rw [← plain_follow, h]
  rfl

end Shared

namespace Projection

open Shared

variable {contents : List (Record Shared)} {message : Shared} {base : Nat}
  {places done : List (List String)} {place : List String} {s : Shared}

/-! ## Where a write goes -/

/-- A write goes to a record that was made, on the way that it takes, or into the message. -/
theorem Overlay.goes {l : Nat} {fields : Record Shared} {first : String} {rest : List String}
    (hcontents : contents.length ≤ base) (hmessage : Fits contents message)
    (h : Overlay message base places done place (.record l fields)) (value : Shared) (next : Nat) :
    (Shared.writeAt l fields first rest value next).1.label < base ∨
      ∃ i ks, (Shared.writeAt l fields first rest value next).1.label = base + i ∧
        places[i]? = some (place ++ ks) := by
  induction rest generalizing l fields first place with
  | nil =>
    cases h with
    | @made _ i _ here _ => exact Or.inr ⟨i, [], rfl, by simpa using here⟩
    | taken _ read _ =>
      rcases (show IsPart contents message from Or.inl hmessage).follow read with h | ⟨v, hv⟩
      · exact Or.inl (Nat.lt_of_lt_of_le (h.writeAt_label value next) hcontents)
      · cases hv
  | cons k ks ih =>
    cases h with
    | @made _ i _ here hfields =>
      have hown : ∃ j ks, base + i = base + j ∧ places[j]? = some (place ++ ks) :=
        ⟨i, [], rfl, by simpa using here⟩
      rw [Shared.writeAt]
      split
      · rename_i l' inner hget
        rcases ih (hfields _ (Record.mem_of_get?_eq_some hget)) with hlt | ⟨j, more, hlabel, hplace⟩
        · exact Or.inl hlt
        · exact Or.inr ⟨j, first :: more, hlabel, by simpa using hplace⟩
      · exact Or.inr hown
    | taken _ read _ =>
      rcases (show IsPart contents message from Or.inl hmessage).follow read with h | ⟨v, hv⟩
      · exact Or.inl (Nat.lt_of_lt_of_le (h.writeAt_label value next) hcontents)
      · cases hv

/-- A place and one below it have records of their own. -/
theorem ne_of_below {i j : Nat} {k : String} {ks : List String} (here : places[i]? = some place)
    (hbelow : places[j]? = some (place ++ [k] ++ ks)) : i ≠ j := by
  rintro rfl
  rw [here, Option.some.injEq] at hbelow
  have hlength := congrArg List.length hbelow
  simp at hlength

/-- A write to a record that was made does not show where that record is not. -/
theorem Overlay.apply_elsewhere {w : Write} {i : Nat} {target : List String}
    (hcontents : contents.length ≤ base) (hmessage : Fits contents message)
    (h : Overlay message base places done place s) (hlabel : w.label = base + i)
    (htarget : places[i]? = some target) (hnot : ¬ place <+: target) : s.apply w = s := by
  induction h with
  | @made place j fields here _ ih =>
    have hsame : ∀ f ∈ fields, (f.1, f.2.apply w) = f := by
      intro f hf
      rw [ih f hf fun hbelow => hnot ((List.prefix_append place [f.1]).trans hbelow)]
    have hne : base + j ≠ w.label := by
      intro hj
      have hij : i = j := by omega
      rw [hij, here] at htarget
      exact hnot (Option.some.inj htarget ▸ List.prefix_refl _)
    rw [apply_record, if_neg hne, List.map_congr_left hsame, List.map_id']
  | taken _ read _ =>
    have hpart := (show IsPart contents message from Or.inl hmessage).follow read
    exact hpart.apply_eq_self (Or.inl (by omega))

/-- A write that spares the message finds its value in place, or it goes to a record that was made,
on the way that it takes. -/
theorem Overlay.goes_spared {l : Nat} {fields : Record Shared} {first : String} {rest : List String}
    {value : Shared} (hcontents : contents.length ≤ base) (hmessage : Fits contents message)
    (h : Overlay message base places done place (.record l fields))
    (hread : follow (place ++ first :: rest) message = .ok value) (hthere : value.isAbsent = false)
    (hspared : ∀ q ∈ done, Path.intrudes message.plain q (place ++ first :: rest) = false) :
    (Shared.writeAt l fields first rest value (base + places.length)).1.IsIdle contents ∨
      ∃ i ks, (Shared.writeAt l fields first rest value (base + places.length)).1.label = base + i ∧
        places[i]? = some (place ++ ks) := by
  rcases h.writeAt hmessage hread hthere hspared with ⟨hidle, -⟩ | ⟨more, -, i, target, hlabel, -⟩
  · exact Or.inl hidle
  · have hgoes : (Shared.writeAt l fields first rest value (base + places.length)).1.label < base ∨
        _ := h.goes hcontents hmessage value _
    rcases hgoes with hlt | hmade
    · omega
    · exact Or.inr hmade

/-! ## Showing what is selected -/

/-- The records of a message, and of the parts of it that were selected, have the labels of a table,
and the labels from a base on are new. -/
structure Grounded (contents : List (Record Shared)) (message : Shared) (base : Nat)
    (done : List (List String)) : Prop where
  below : contents.length ≤ base
  fits : Fits contents message
  parts : ∀ p ∈ done, ∀ s, follow p message = .ok s → Fits contents s

/-- A value at a place of a projection that shows what some paths select, and nothing else. At a
place that is selected it is the part of the message that is there. Above such places it is a record
of the keys that lead on to them. -/
inductive Shows (message : Shared) (done : List (List String)) : List String → Shared → Prop
  | made {place : List String} {l : Nat} {fields : Record Shared} (fresh : place ∉ done)
    (keys : ∀ k, (Record.get? fields k).isSome = true ↔ ∃ p ∈ done, place ++ [k] <+: p)
    (h : ∀ k s, Record.get? fields k = some s → Shows message done (place ++ [k]) s) :
    Shows message done place (.record l fields)
  | taken {place : List String} {s : Shared} (selected : place ∈ done)
    (read : follow place message = .ok s) (there : s.isAbsent = false) :
    Shows message done place s

theorem Shows.there (h : Shows message done place s) : s.isAbsent = false := by
  cases h with
  | made => rfl
  | taken _ _ there => exact there

/-- A path that does not lead through a place has nothing to show there. -/
theorem Shows.add {p : List String} (h : Shows message done place s) (hnot : ¬ place <+: p) :
    Shows message (p :: done) place s := by
  induction h with
  | @made place l fields fresh keys _ ih =>
    have hbelow : ∀ k, ¬ place ++ [k] <+: p := by
      intro k hk
      exact hnot ((List.prefix_append place [k]).trans hk)
    apply Shows.made
    · intro hmem
      rcases List.mem_cons.mp hmem with rfl | hmem
      · exact hnot (List.prefix_refl _)
      · exact fresh hmem
    · intro k
      rw [keys k]
      simp [hbelow k]
    · intro k s hget
      exact ih k s hget (hbelow k)
  | taken selected read there => exact .taken (List.mem_cons_of_mem _ selected) read there

/-- New records show a path below a place where nothing was shown. -/
theorem Shows.chain {ks : List String} {value : Shared} (hbare : ∀ q ∈ done, ¬ place <+: q)
    (hread : follow (place ++ ks) message = .ok value) (hthere : value.isAbsent = false)
    (next : Nat) : Shows message ((place ++ ks) :: done) place (Shared.chain ks value next).1 := by
  induction ks generalizing place next with
  | nil =>
    rw [List.append_nil] at hread ⊢
    exact .taken List.mem_cons_self hread hthere
  | cons k ks ih =>
    have hplace : place ++ k :: ks = place ++ [k] ++ ks := by simp
    rw [Shared.chain]
    apply Shows.made
    · intro hmem
      rcases List.mem_cons.mp hmem with hself | hmem
      · simp at hself
      · exact hbare place hmem (List.prefix_refl _)
    · intro k'
      have hnone : ∀ q ∈ done, ¬ place ++ [k'] <+: q := by
        intro q hq hbelow
        exact hbare q hq ((List.prefix_append place [k']).trans hbelow)
      rw [Record.get?_cons]
      simp only [List.mem_cons, exists_eq_or_imp, Path.append_singleton_prefix_iff]
      by_cases hk : k' = k
      · simp [hk]
      · simpa [hk] using hnone
    · intro k' s hget
      rw [Record.get?_cons] at hget
      split at hget
      · rename_i hk
        subst hk
        obtain rfl := Option.some.inj hget
        rw [hplace] at hread ⊢
        apply ih _ hread
        intro q hq hbelow
        exact hbare q hq ((List.prefix_append place [k']).trans hbelow)
      · cases hget

/-- A record shows one path more if the path is shown below its key, and the other keys have what
they had. -/
theorem Shows.record {l : Nat} {fields after : Record Shared} {first : String}
    {rest : List String} {t : Shared} (fresh : place ∉ done)
    (keys : ∀ k, (Record.get? fields k).isSome = true ↔ ∃ p ∈ done, place ++ [k] <+: p)
    (h : ∀ k s, Record.get? fields k = some s → Shows message done (place ++ [k]) s)
    (hfirst : Record.get? after first = some t)
    (hothers : ∀ k, k ≠ first → Record.get? after k = Record.get? fields k)
    (ht : Shows message ((place ++ first :: rest) :: done) (place ++ [first]) t) :
    Shows message ((place ++ first :: rest) :: done) place (.record l after) := by
  apply Shows.made
  · intro hmem
    rcases List.mem_cons.mp hmem with hself | hmem
    · simp at hself
    · exact fresh hmem
  · intro k
    simp only [List.mem_cons, exists_eq_or_imp, Path.append_singleton_prefix_iff]
    by_cases hk : k = first
    · simp [hk, hfirst]
    · rw [hothers k hk, keys k]
      simp [hk]
  · intro k s hget
    by_cases hk : k = first
    · subst hk
      obtain rfl := Option.some.inj (hfirst.symm.trans hget)
      exact ht
    · rw [hothers k hk] at hget
      exact (h k s hget).add fun hbelow => hk (Path.append_singleton_prefix_iff.mp hbelow)

/-- A write to a record that was made shows there, and nowhere else in the record. -/
theorem Shows.put {i : Nat} {fields : Record Shared} {first : String} {rest : List String}
    {t : Shared} (hcontents : contents.length ≤ base) (hmessage : Fits contents message)
    (here : places[i]? = some place)
    (hover : ∀ f ∈ fields, Overlay message base places done (place ++ [f.1]) f.2)
    (fresh : place ∉ done)
    (keys : ∀ k, (Record.get? fields k).isSome = true ↔ ∃ p ∈ done, place ++ [k] <+: p)
    (h : ∀ k s, Record.get? fields k = some s → Shows message done (place ++ [k]) s)
    (ht : Shows message ((place ++ first :: rest) :: done) (place ++ [first]) t) :
    Shows message ((place ++ first :: rest) :: done) place
      ((Shared.record (base + i) fields).apply ⟨base + i, first, t⟩) := by
  have haside : ∀ k s, Record.get? fields k = some s → s.apply ⟨base + i, first, t⟩ = s := by
    intro k s hget
    apply (hover _ (Record.mem_of_get?_eq_some hget)).apply_elsewhere hcontents hmessage rfl here
    intro hbelow
    have hlength := hbelow.length_le
    rw [List.length_append, List.length_singleton] at hlength
    omega
  rw [apply_record, if_pos rfl]
  apply Shows.record fresh keys h _ _ ht
  · exact Record.get?_put_self _ _ _
  · intro k hk
    rw [Record.get?_put_of_ne hk, Record.get?_map]
    cases hget : Record.get? fields k with
    | none => rfl
    | some s => rw [Option.map_some, haside k s hget]

/-- A write that goes into a record under a key, or finds its value in place, shows under that key
only. -/
theorem Shows.descend {i : Nat} {fields : Record Shared} {first : String} {rest : List String}
    {t : Shared} {w : Write} (hcontents : contents.length ≤ base) (hmessage : Fits contents message)
    (here : places[i]? = some place)
    (hover : ∀ f ∈ fields, Overlay message base places done (place ++ [f.1]) f.2)
    (fresh : place ∉ done)
    (keys : ∀ k, (Record.get? fields k).isSome = true ↔ ∃ p ∈ done, place ++ [k] <+: p)
    (h : ∀ k s, Record.get? fields k = some s → Shows message done (place ++ [k]) s)
    (hget : Record.get? fields first = some t)
    (hgoes : w.IsIdle contents ∨
      ∃ j ks, w.label = base + j ∧ places[j]? = some (place ++ [first] ++ ks))
    (ht : Shows message ((place ++ first :: rest) :: done) (place ++ [first]) (t.apply w)) :
    Shows message ((place ++ first :: rest) :: done) place
      ((Shared.record (base + i) fields).apply w) := by
  have hne : base + i ≠ w.label := by
    intro hlabel
    rcases hgoes with ⟨found, hfound, -⟩ | ⟨j, ks, hj, htarget⟩
    · have hlt := (List.getElem?_eq_some_iff.mp hfound).1
      omega
    · exact ne_of_below here htarget (by omega)
  have haside : ∀ k s, k ≠ first → Record.get? fields k = some s → s.apply w = s := by
    intro k s hk hs
    have hpart := hover _ (Record.mem_of_get?_eq_some hs)
    rcases hgoes with hidle | ⟨j, ks, hlabel, htarget⟩
    · exact hpart.apply_eq_self hcontents hmessage hidle
    · apply hpart.apply_elsewhere hcontents hmessage hlabel htarget
      intro hbelow
      rw [List.append_assoc, List.singleton_append] at hbelow
      exact hk (Path.append_singleton_prefix_iff.mp hbelow)
  rw [apply_record, if_neg hne]
  apply Shows.record fresh keys h _ _ ht
  · rw [Record.get?_map, hget, Option.map_some]
  · intro k hk
    rw [Record.get?_map]
    cases hs : Record.get? fields k with
    | none => rfl
    | some s => rw [Option.map_some, haside k s hk hs]

/-- Where a path leads on without tearing what is shown, a record is shown. -/
theorem Shows.exists_record {k : String} {ks : List String} {value : Shared}
    (hground : Grounded contents message base done)
    (h : Shows message done place s) (hread : follow (place ++ k :: ks) message = .ok value)
    (hthere : value.isAbsent = false)
    (hspared : ∀ q ∈ done, ¬ Path.Tears message.plain q (place ++ k :: ks)) :
    ∃ l fields, s = .record l fields := by
  cases h with
  | made => exact ⟨_, _, rfl⟩
  | taken selected read _ =>
    by_contra hnot
    have hnone := (hground.parts place selected s read).fields?_plain fun l fields hs =>
      hnot ⟨l, fields, hs⟩
    exact hspared place selected ⟨k :: ks, s.plain, value.plain, rfl, follow_plain read,
      follow_plain hread, isAbsent_eq value ▸ hthere,
      Path.staysInRecords_of_fields?_none hnone k ks⟩

/-- A write on from a place that was selected finds its value there. -/
theorem Shows.writeAt_selected {l : Nat} {fields : Record Shared} {first : String}
    {rest : List String} {value : Shared} (hmessage : Fits contents message)
    (selected : place ∈ done) (read : follow place message = .ok (.record l fields))
    (hread : follow (place ++ first :: rest) message = .ok value) (hthere : value.isAbsent = false)
    (hspared : ¬ Path.Tears message.plain place (place ++ first :: rest)) (next : Nat) :
    Shows message ((place ++ first :: rest) :: done) place
      ((Shared.record l fields).apply (Shared.writeAt l fields first rest value next).1) := by
  obtain ⟨hidle, -⟩ := writeAt_taken hmessage read hread hthere
    (Path.intrudes_of_not_tears hspared) next
  have hpart := (show IsPart contents message from Or.inl hmessage).follow read
  rw [hpart.apply_eq_self (Or.inr hidle)]
  exact .taken (List.mem_cons_of_mem _ selected) read rfl

/-- A write that does not tear what is shown adds its path to it. -/
theorem Shows.writeAt {l : Nat} {fields : Record Shared} {first : String} {rest : List String}
    {value : Shared} (hground : Grounded contents message base done)
    (hover : Overlay message base places done place (.record l fields))
    (h : Shows message done place (.record l fields))
    (hread : follow (place ++ first :: rest) message = .ok value) (hthere : value.isAbsent = false)
    (hspared : ∀ q ∈ done, ¬ Path.Tears message.plain q (place ++ first :: rest)) :
    Shows message ((place ++ first :: rest) :: done) place
      ((Shared.record l fields).apply
        (Shared.writeAt l fields first rest value (base + places.length)).1) := by
  -- The way of the write leads through records that were made. It ends at a key that is missing, or
  -- at a selected place, from which on the value is in place already.
  induction rest generalizing l fields first place with
  | nil =>
    cases h with
    | taken selected read _ =>
      exact Shows.writeAt_selected hground.fits selected read hread hthere (hspared place selected) _
    | made fresh keys hfields =>
      cases hover with
      | taken selected _ _ => exact absurd selected fresh
      | made here hparts =>
        exact Shows.put hground.below hground.fits here hparts fresh keys hfields
          (.taken List.mem_cons_self hread hthere)
  | cons k ks ih =>
    cases h with
    | taken selected read _ =>
      exact Shows.writeAt_selected hground.fits selected read hread hthere (hspared place selected) _
    | made fresh keys hfields =>
      cases hover with
      | taken selected _ _ => exact absurd selected fresh
      | @made _ i _ here hparts =>
        have hplace : place ++ first :: k :: ks = place ++ [first] ++ k :: ks := by simp
        cases hget : Record.get? fields first with
        | none =>
          have hbare : ∀ q ∈ done, ¬ place ++ [first] <+: q := by
            intro q hq hbelow
            have hsome := (keys first).mpr ⟨q, hq, hbelow⟩
            rw [hget] at hsome
            cases hsome
          rw [Shared.writeAt, hget]
          apply Shows.put hground.below hground.fits here hparts fresh keys hfields
          rw [hplace] at hread ⊢
          exact Shows.chain hbare hread hthere _
        | some t =>
          have ht := hfields first t hget
          have hpart := hparts _ (Record.mem_of_get?_eq_some hget)
          rw [hplace] at hread hspared
          obtain ⟨l', inner, rfl⟩ := ht.exists_record hground hread hthere hspared
          have hinner := ih hpart ht hread hspared
          have hgoes := hpart.goes_spared hground.below hground.fits hread hthere fun q hq =>
            Path.intrudes_of_not_tears (hspared q hq)
          rw [← hplace] at hinner
          rw [Shared.writeAt, hget]
          dsimp only at hinner hgoes ⊢
          generalize (Shared.writeAt l' inner k ks value (base + places.length)).1 = w at *
          exact Shows.descend hground.below hground.fits here hparts fresh keys hfields hget hgoes
            hinner

end Projection

end Switchboard
