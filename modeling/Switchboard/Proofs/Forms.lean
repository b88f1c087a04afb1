import Mathlib.Data.List.Forall2
import Switchboard.Rule.Condition

/-!
# Forms that are written and read again

A form has fields, each with a wire name and a plain name. It is written as its own fields under
their wire names, followed by further keys, without those that are null. What is read from that
record is each own field under its wire name, and the further keys again, unless the plain name of
a field that was null is among the further keys.
-/
namespace Switchboard

namespace Record

variable {α : Type}

theorem get?_append (r s : Record α) (key : String) :
    get? (r ++ s) key = (get? r key).or (get? s key) := List.lookup_append

theorem get?_eq_none_iff {r : Record α} {key : String} : get? r key = none ↔ key ∉ keys r := by
  induction r with
  | nil => simp [keys]
  | cons p r ih =>
    obtain ⟨k, v⟩ := p
    by_cases h : key = k
    · simp [get?_cons, keys, h]
    · simp only [get?_cons, h, ite_false, ih]
      simp [keys, h]

theorem mem_of_get?_eq_some {r : Record α} {key : String} {v : α} (h : get? r key = some v) :
    (key, v) ∈ r := by
  induction r with
  | nil => simp at h
  | cons p r ih =>
    obtain ⟨k, w⟩ := p
    rw [get?_cons] at h
    split at h
    · rename_i hk
      simp only [Option.some.injEq] at h
      simp [hk, h]
    · exact List.mem_cons_of_mem _ (ih h)

theorem get?_of_mem {r : Record α} (distinct : (keys r).Nodup) {key : String} {v : α}
    (h : (key, v) ∈ r) : get? r key = some v := by
  induction r with
  | nil => simp at h
  | cons p r ih =>
    obtain ⟨k, w⟩ := p
    simp only [keys, List.map_cons, List.nodup_cons] at distinct
    rcases List.mem_cons.mp h with he | hr
    · simp only [Prod.mk.injEq] at he
      simp [get?_cons, he]
    · have hk : key ≠ k := by
        rintro rfl
        exact distinct.1 (List.mem_map_of_mem hr)
      simp [get?_cons, hk, ih distinct.2 hr]

theorem get?_filter_eq_none {r : Record α} {key : String} (h : get? r key = none)
    (p : String × α → Bool) : get? (r.filter p) key = none := by
  rw [get?_eq_none_iff] at h ⊢
  intro hm
  obtain ⟨q, hq, rfl⟩ := List.mem_map.mp hm
  exact h (List.mem_map_of_mem (List.mem_filter.mp hq).1)

/-- A filter that lets the first value of a key through keeps it the first. -/
theorem get?_filter_of_eq_some {r : Record α} {key : String} {v : α} (h : get? r key = some v)
    {keep : String × α → Bool} (hkeep : keep (key, v) = true) :
    get? (r.filter keep) key = some v := by
  induction r with
  | nil => simp at h
  | cons p r ih =>
    obtain ⟨k, w⟩ := p
    rw [get?_cons] at h
    by_cases hk : key = k
    · subst hk
      rw [if_pos rfl, Option.some.injEq] at h
      subst h
      simp [hkeep, get?_cons]
    · rw [if_neg hk] at h
      cases hp : keep (k, w) <;> simp [hp, get?_cons, hk, ih h]

theorem erase_eq_self {r : Record α} {key : String} (h : get? r key = none) : erase r key = r := by
  rw [get?_eq_none_iff] at h
  refine List.filter_eq_self.mpr fun p hp => ?_
  have hne : p.1 ≠ key := fun he => h (he ▸ List.mem_map_of_mem hp)
  simpa using hne

@[simp] theorem get?_erase_self (r : Record α) (key : String) : get? (erase r key) key = none := by
  rw [get?_eq_none_iff]
  intro hm
  obtain ⟨p, hp, rfl⟩ := List.mem_map.mp hm
  simpa using (List.mem_filter.mp hp).2

theorem get?_filter_key (p : String → Bool) (r : Record α) (key : String) :
    get? (r.filter fun q => p q.1) key = if p key then get? r key else none := by
  induction r with
  | nil => simp
  | cons q r ih =>
    obtain ⟨k, v⟩ := q
    by_cases hk : key = k
    · subst hk
      cases hp : p key <;> simp [hp, get?_cons, ih]
    · cases hp : p k <;> simp [hp, get?_cons, hk, ih]

theorem get?_erase_of_ne {key other : String} (h : key ≠ other) (r : Record α) :
    get? (erase r other) key = get? r key := by
  rw [erase, get?_filter_key fun k => k != other]
  simp [h]

theorem mem_put {key : String} {value : α} {p : String × α} {r : Record α}
    (h : p ∈ put key value r) : p = (key, value) ∨ p ∈ r := by
  induction r with
  | nil => exact Or.inl (List.mem_singleton.mp h)
  | cons q r ih =>
    obtain ⟨k, v⟩ := q
    unfold put at h
    split at h
    · exact (List.mem_cons.mp h).imp_right (List.mem_cons_of_mem _)
    · rcases List.mem_cons.mp h with rfl | h
      · exact Or.inr List.mem_cons_self
      · exact (ih h).imp_right (List.mem_cons_of_mem _)

/-- Every field of a merged record comes from one of the two. -/
theorem mem_merge {p : String × α} {r s : Record α} (h : p ∈ merge r s) : p ∈ r ∨ p ∈ s := by
  unfold merge at h
  induction s generalizing r with
  | nil => exact Or.inl h
  | cons q s ih =>
    rcases ih h with h | h
    · rcases mem_put h with rfl | h
      · exact Or.inr List.mem_cons_self
      · exact Or.inl h
    · exact Or.inr (List.mem_cons_of_mem _ h)

/-- A key that neither of two records has is no key of the merged one. -/
theorem get?_merge_eq_none {r s : Record α} {key : String} (hr : get? r key = none)
    (hs : get? s key = none) : get? (merge r s) key = none := by
  rw [get?_eq_none_iff] at hr hs ⊢
  intro hkey
  obtain ⟨p, hp, rfl⟩ := List.mem_map.mp hkey
  rcases mem_merge hp with hp | hp
  · exact hr (List.mem_map_of_mem hp)
  · exact hs (List.mem_map_of_mem hp)

/-- Where keys are distinct, a filter keeps a key with its value, or drops it. -/
theorem get?_filter {r : Record α} (distinct : (keys r).Nodup) (keep : String × α → Bool)
    (key : String) : get? (r.filter keep) key = (get? r key).filter fun v => keep (key, v) := by
  induction r with
  | nil => rfl
  | cons p r ih =>
    obtain ⟨k, v⟩ := p
    simp only [keys, List.map_cons, List.nodup_cons] at distinct
    have ih := ih distinct.2
    by_cases hk : key = k
    · subst hk
      cases hv : keep (key, v)
      · have hr : get? r key = none := get?_eq_none_iff.mpr distinct.1
        simp [hv, get?_cons, get?_filter_eq_none hr, Option.filter]
      · simp [hv, get?_cons, Option.filter]
    · cases hv : keep (k, v)
      · simpa [hv, get?_cons, hk] using ih
      · simpa [hv, get?_cons, hk] using ih

theorem keys_put (key : String) (value : α) (r : Record α) :
    keys (put key value r) = if key ∈ keys r then keys r else keys r ++ [key] := by
  induction r with
  | nil => rfl
  | cons p r ih =>
    obtain ⟨k, v⟩ := p
    unfold put
    by_cases hk : k = key
    · simp [hk, keys]
    · have hne : ¬ key = k := fun he => hk he.symm
      by_cases hr : key ∈ keys r <;> simp_all [keys]

theorem nodup_put {r : Record α} (distinct : (keys r).Nodup) (key : String) (value : α) :
    (keys (put key value r)).Nodup := by
  rw [keys_put]
  split
  · exact distinct
  · rename_i hkey
    rw [List.nodup_append]
    refine ⟨distinct, by simp, ?_⟩
    rintro k hk _ hmem rfl
    exact hkey (List.mem_singleton.mp hmem ▸ hk)

theorem nodup_merge {r : Record α} (distinct : (keys r).Nodup) (s : Record α) :
    (keys (merge r s)).Nodup := by
  unfold merge
  induction s generalizing r with
  | nil => exact distinct
  | cons p s ih => exact ih (nodup_put distinct p.1 p.2)

/-- What the second of two records has under a key counts. -/
theorem get?_merge {s : Record α} (distinct : (keys s).Nodup) (r : Record α) (key : String) :
    get? (merge r s) key = (get? s key).or (get? r key) := by
  unfold merge
  induction s generalizing r with
  | nil => rfl
  | cons p s ih =>
    obtain ⟨k, v⟩ := p
    simp only [keys, List.map_cons, List.nodup_cons] at distinct
    rw [List.foldl_cons, ih distinct.2, get?_cons]
    by_cases hk : key = k
    · subst hk
      have hs : get? s key = none := get?_eq_none_iff.mpr distinct.1
      simp [hs]
    · rw [get?_put_of_ne hk, if_neg hk]

theorem mem_ofPairs {p : String × α} {ps : List (String × α)} (h : p ∈ ofPairs ps) : p ∈ ps :=
  (mem_merge h).resolve_left List.not_mem_nil

end Record

theorem dropNulls_append (r s : Record Value) :
    dropNulls (r ++ s) = dropNulls r ++ dropNulls s := List.filter_append ..

@[simp] theorem dropNulls_dropNulls (r : Record Value) : dropNulls (dropNulls r) = dropNulls r := by
  simp [dropNulls]

theorem get?_dropNulls {r : Record Value} (distinct : (Record.keys r).Nodup) (key : String) :
    Record.get? (dropNulls r) key = (Record.get? r key).filter fun v => !v.isNull :=
  Record.get?_filter distinct _ key

namespace Check

variable {α β : Type}

@[simp] theorem ok_seq_ok (f : α → β) (a : α) : (Check.ok f <*> Check.ok a) = Check.ok (f a) := rfl

theorem seq_ok (f : Check (α → β)) (a : α) : (f <*> .ok a) = f.map fun g => g a := by
  cases f <;> rfl

@[simp] theorem map_ok (f : α → β) (a : α) : (f <$> Check.ok a) = Check.ok (f a) := rfl

theorem map'_map' {γ : Type} (g : β → γ) (f : α → β) (x : Check α) :
    (x.map f).map g = x.map fun a => g (f a) := by
  cases x <;> rfl

theorem map'_congr {f g : α → β} {x : Check α} (h : ∀ a, x = .ok a → f a = g a) :
    x.map f = x.map g := by
  cases x with
  | ok a => exact congrArg Check.ok (h a rfl)
  | _ => rfl

@[simp] theorem under_ok (s : Step) (a : α) : under s (.ok a) = .ok a := rfl

theorem under_eq_ok {s : Step} {c : Check α} {a : α} : c.under s = .ok a ↔ c = .ok a := by
  cases c <;> simp [under]

theorem both_eq_ok {x : Check α} {y : Check β} {p : α × β} :
    x.both y = .ok p ↔ x = .ok p.1 ∧ y = .ok p.2 := by
  obtain ⟨a, b⟩ := p
  cases x <;> cases y <;> simp [both]

theorem map'_eq_ok {f : α → β} {x : Check α} {b : β} :
    x.map f = .ok b ↔ ∃ a, x = .ok a ∧ f a = b := by
  cases x <;> simp [map]

theorem seq_eq_ok {f : Check (α → β)} {x : Check α} {b : β} :
    (f <*> x) = .ok b ↔ ∃ g, f = .ok g ∧ ∃ a, x = .ok a ∧ g a = b := by
  change (both f x).map _ = _ ↔ _
  rw [map'_eq_ok]
  constructor
  · rintro ⟨⟨g, a⟩, h, rfl⟩
    exact ⟨g, (both_eq_ok.mp h).1, a, (both_eq_ok.mp h).2, rfl⟩
  · rintro ⟨g, hg, a, ha, rfl⟩
    exact ⟨(g, a), both_eq_ok.mpr ⟨hg, ha⟩, rfl⟩

theorem map_eq_ok {f : α → β} {x : Check α} {b : β} :
    (f <$> x) = .ok b ↔ ∃ a, x = .ok a ∧ f a = b := by
  change (Check.ok f <*> x) = _ ↔ _
  rw [seq_eq_ok]
  simp

theorem andThen_eq_ok {c : Check α} {f : α → Check β} {b : β} :
    c.andThen f = .ok b ↔ ∃ a, c = .ok a ∧ f a = .ok b := by
  cases c <;> simp [andThen]

theorem run_eq_ok {form : String} {c : Check α} {a : α} : c.run form = .ok a ↔ c = .ok a := by
  cases c <;> simp [run]

/-- The field that is found is one of the record. -/
theorem mem_of_find? {r : Record Value} {wire plain : String} {p : String × Value}
    (h : find? r wire plain = some p) : p ∈ r := by
  unfold find? at h
  split at h
  · rename_i hw
    exact Option.some.inj h ▸ Record.mem_of_get?_eq_some hw
  · obtain ⟨v, hv, rfl⟩ := Option.map_eq_some_iff.mp h
    exact Record.mem_of_get?_eq_some hv

/-- A field that was read comes from a value of the record. -/
theorem required_source {r : Record Value} {wire plain : String} {read : Value → Check α} {a : α}
    (h : required r wire plain read = .ok a) : ∃ p ∈ r, read p.2 = .ok a := by
  unfold required at h
  split at h
  · rename_i hf
    exact ⟨_, mem_of_find? hf, under_eq_ok.mp h⟩
  · cases h

/-- A field that was read is the default or comes from a value of the record. -/
theorem optional_source {r : Record Value} {wire plain : String} {default : α}
    {read : Value → Check α} {a : α} (h : optional r wire plain default read = .ok a) :
    a = default ∨ ∃ p ∈ r, read p.2 = .ok a := by
  unfold optional at h
  split at h
  · rename_i hf
    exact Or.inr ⟨_, mem_of_find? hf, under_eq_ok.mp h⟩
  · simp only [Check.ok.injEq] at h
    exact Or.inl h.symm

theorem optional_eq_ok {r : Record Value} {wire plain : String} {default : α}
    {read : Value → Check α} {a : α} (h : optional r wire plain default read = .ok a) :
    a = default ∨ ∃ v, read v = .ok a :=
  (optional_source h).imp_right fun ⟨p, _, hp⟩ => ⟨p.2, hp⟩

/-- A table is read as the record of those of its keys that are texts. -/
theorem onRecord_eq_ok {read : Record Value → Check α} {v : Value} {a : α}
    (h : onRecord read v = .ok a) : ∃ r, read r = .ok a := by
  unfold onRecord at h
  split at h
  · exact ⟨_, h⟩
  · obtain ⟨p, hp, rfl⟩ := map'_eq_ok.mp h
    exact ⟨_, (both_eq_ok.mp hp).1⟩
  · cases h

/-- The items of a list that was read come one by one from its values. -/
theorem forall₂_items {item : Value → Check α} {n : Nat} {vs : List Value} {as : List α}
    (h : items item n vs = .ok as) : List.Forall₂ (fun v a => item v = .ok a) vs as := by
  induction vs generalizing n as with
  | nil =>
    simp only [items, Check.ok.injEq] at h
    simp [← h]
  | cons v vs ih =>
    simp only [items, map'_eq_ok, both_eq_ok, under_eq_ok] at h
    obtain ⟨⟨a, rest⟩, ⟨ha, hrest⟩, rfl⟩ := h
    exact .cons ha (ih hrest)

theorem length_items {item : Value → Check α} {n : Nat} {vs : List Value} {as : List α}
    (h : items item n vs = .ok as) : as.length = vs.length := (forall₂_items h).length_eq.symm

theorem items_source {item : Value → Check α} {n : Nat} {vs : List Value} {as : List α}
    (h : items item n vs = .ok as) : ∀ a ∈ as, ∃ v ∈ vs, item v = .ok a := by
  have hread := forall₂_items h
  clear h
  induction hread with
  | nil => simp
  | @cons v a vs as ha _ ih =>
    intro b hb
    rcases List.mem_cons.mp hb with rfl | hb
    · exact ⟨v, List.mem_cons_self, ha⟩
    · obtain ⟨w, hw, hitem⟩ := ih b hb
      exact ⟨w, List.mem_cons_of_mem _ hw, hitem⟩

theorem mem_items {item : Value → Check α} {n : Nat} {vs : List Value} {as : List α}
    (h : items item n vs = .ok as) : ∀ a ∈ as, ∃ v, item v = .ok a := by
  intro a ha
  obtain ⟨v, -, hv⟩ := items_source h a ha
  exact ⟨v, hv⟩

/-- Values that are each read as something are read as the list of that. -/
theorem items_map {item : Value → Check β} {write : α → Value} {back : α → β} {as : List α}
    (h : ∀ a ∈ as, item (write a) = .ok (back a)) (n : Nat) :
    items item n (as.map write) = .ok (as.map back) := by
  induction as generalizing n with
  | nil => rfl
  | cons a as ih =>
    have ha : item (write a) = .ok (back a) := h a List.mem_cons_self
    have has := ih (fun b hb => h b (List.mem_cons_of_mem _ hb)) (n + 1)
    simp [items, ha, has, both, Check.map]

/-- A record may be written from own fields and further keys: the own keys are the wire names, none
of which is a further key, and the plain name of a field that is null is no further key either. -/
structure Separate (names : List (String × String)) (own extras : Record Value) : Prop where
  wires : Record.keys own = names.map Prod.fst
  distinct : (names.map Prod.fst).Nodup
  plain : ∀ n ∈ names, ∀ m ∈ names, n.2 = m.1 → n.1 = m.1
  apart : ∀ n ∈ names, Record.get? extras n.1 = none
  shown : ∀ n ∈ names, Record.get? own n.1 = some .null → Record.get? (dropNulls extras) n.2 = none

namespace Separate

variable {names : List (String × String)} {own extras : Record Value}

theorem keys_nodup (h : Separate names own extras) : (Record.keys own).Nodup := by
  rw [h.wires]
  exact h.distinct

theorem find?_eq (h : Separate names own extras) {n : String × String} (hn : n ∈ names) {v : Value}
    (hv : Record.get? own n.1 = some v) :
    find? (dropNulls (own ++ extras)) n.1 n.2 = if v.isNull then none else some (n.1, v) := by
  have hex : Record.get? (dropNulls extras) n.1 = none :=
    Record.get?_filter_eq_none (h.apart n hn) _
  have hwire : Record.get? (dropNulls (own ++ extras)) n.1 = if v.isNull then none else some v := by
    rw [dropNulls_append, Record.get?_append, hex, get?_dropNulls h.keys_nodup, hv]
    cases hnull : v.isNull <;> simp [Option.filter, hnull]
  cases hnull : v.isNull with
  | false => simp [find?, hwire, hnull]
  | true =>
    have hv' : v = .null := by cases v <;> simp_all [Value.isNull]
    have hown : Record.get? (dropNulls own) n.2 = none := by
      rw [get?_dropNulls h.keys_nodup]
      cases hp : Record.get? own n.2 with
      | none => rfl
      | some w =>
        have hm : n.2 ∈ names.map Prod.fst := by
          rw [← h.wires]
          exact List.mem_map_of_mem (Record.mem_of_get?_eq_some hp)
        obtain ⟨m, hm, he⟩ := List.mem_map.mp hm
        rw [← he, ← h.plain n hn m hm he.symm, hv] at hp
        simp only [Option.some.injEq] at hp
        simp [← hp, Option.filter, hnull]
    have hplain : Record.get? (dropNulls (own ++ extras)) n.2 = none := by
      rw [dropNulls_append, Record.get?_append, hown, h.shown n hn (hv' ▸ hv), Option.or_none]
    simp [find?, hwire, hnull, hplain]

theorem exists_get? (h : Separate names own extras) {n : String × String} (hn : n ∈ names) :
    ∃ v, Record.get? own n.1 = some v := by
  rw [← Option.isSome_iff_exists, Option.isSome_iff_ne_none, ne_eq, Record.get?_eq_none_iff, h.wires]
  exact fun hm => hm (List.mem_map_of_mem hn)

theorem optional_eq (h : Separate names own extras) {n : String × String} (hn : n ∈ names)
    {v : Value} (hv : Record.get? own n.1 = some v) {α : Type} (default : α)
    (read : Value → Check α) :
    optional (dropNulls (own ++ extras)) n.1 n.2 default read =
      if v.isNull then .ok default else (read v).under (.key n.1) := by
  unfold optional
  rw [h.find?_eq hn hv]
  cases v.isNull <;> rfl

theorem required_eq (h : Separate names own extras) {n : String × String} (hn : n ∈ names)
    {v : Value} (hv : Record.get? own n.1 = some v) (hnull : v.isNull = false) {α : Type}
    (read : Value → Check α) :
    required (dropNulls (own ++ extras)) n.1 n.2 read = (read v).under (.key n.1) := by
  unfold required
  rw [h.find?_eq hn hv, hnull]
  rfl

/-- The names that a record is read by are the keys of its own fields that are not null. -/
theorem mem_used_iff (h : Separate names own extras) (key : String) :
    key ∈ names.filterMap (fun n => (find? (dropNulls (own ++ extras)) n.1 n.2).map Prod.fst) ↔
      ∃ n ∈ names, ∃ v, Record.get? own n.1 = some v ∧ v.isNull = false ∧ n.1 = key := by
  rw [List.mem_filterMap]
  refine exists_congr fun n => and_congr_right fun hn => ?_
  obtain ⟨v, hv⟩ := h.exists_get? hn
  rw [h.find?_eq hn hv, hv]
  cases hnull : v.isNull <;> simp [hnull]

/-- The further keys are read as they were written. -/
theorem others_eq (h : Separate names own extras) :
    others (dropNulls (own ++ extras)) names = dropNulls extras := by
  have hused := h.mem_used_iff
  unfold others
  generalize names.filterMap (fun n => (find? (dropNulls (own ++ extras)) n.1 n.2).map Prod.fst)
    = used at hused ⊢
  have hown : (dropNulls own).filter (fun p => !used.contains p.1) = [] := by
    rw [List.filter_eq_nil_iff]
    intro p hp
    obtain ⟨hm, hnull⟩ := List.mem_filter.mp hp
    have hkey : p.1 ∈ names.map Prod.fst := by
      rw [← h.wires]
      exact List.mem_map_of_mem hm
    obtain ⟨n, hn, he⟩ := List.mem_map.mp hkey
    have hv : Record.get? own n.1 = some p.2 := by
      rw [he]
      exact Record.get?_of_mem h.keys_nodup hm
    simpa using (hused p.1).mpr ⟨n, hn, p.2, hv, by simpa using hnull, he⟩
  have hextras : (dropNulls extras).filter (fun p => !used.contains p.1) = dropNulls extras := by
    rw [List.filter_eq_self]
    intro p hp
    have hp : p.1 ∈ Record.keys extras := List.mem_map_of_mem (List.mem_filter.mp hp).1
    simp only [List.contains_eq_mem, Bool.not_eq_true', decide_eq_false_iff_not, hused, not_exists,
      not_and]
    rintro n hn v - - he
    exact Record.get?_eq_none_iff.mp (h.apart n hn) (he ▸ hp)
  rw [dropNulls_append, List.filter_append, hown, hextras, List.nil_append]

end Separate

theorem mem_usedKeys {r : Record Value} {names : List (String × String)} {key : String} :
    key ∈ names.filterMap (fun n => (find? r n.1 n.2).map Prod.fst) ↔
      ∃ n ∈ names, (key = n.1 ∧ Record.has r n.1) ∨
        (key = n.2 ∧ Record.get? r n.1 = none ∧ Record.has r n.2) := by
  rw [List.mem_filterMap]
  refine exists_congr fun n => and_congr_right fun _ => ?_
  unfold find? Record.has
  cases Record.get? r n.1 <;> cases Record.get? r n.2 <;> simp [eq_comm]

theorem get?_others (r : Record Value) (names : List (String × String)) (key : String) :
    Record.get? (others r names) key =
      if key ∈ names.filterMap (fun n => (find? r n.1 n.2).map Prod.fst) then none
      else Record.get? r key := by
  generalize hu : names.filterMap (fun n => (find? r n.1 n.2).map Prod.fst) = used
  have ho : others r names = r.filter fun p => !used.contains p.1 := by rw [← hu, others]
  rw [ho, Record.get?_filter_key fun key => !used.contains key]
  by_cases h : key ∈ used <;> simp [h]

/-- No further key has the wire name of a field. -/
theorem get?_others_wire (r : Record Value) {names : List (String × String)} {n : String × String}
    (hn : n ∈ names) : Record.get? (others r names) n.1 = none := by
  rw [get?_others]
  split
  · rfl
  · rename_i hu
    cases hg : Record.get? r n.1 with
    | none => rfl
    | some v => exact absurd (mem_usedKeys.mpr ⟨n, hn, Or.inl ⟨rfl, by simp [Record.has, hg]⟩⟩) hu

/-- The plain name of a field is a further key when the field is given under both names. -/
theorem get?_others_plain (r : Record Value) {names : List (String × String)} {n : String × String}
    (hn : n ∈ names) (hne : n.2 ≠ n.1) (own : ∀ m ∈ names, n.2 = m.1 ∨ n.2 = m.2 → m = n) :
    Record.get? (others r names) n.2 = none ↔
      ¬ (Record.has r n.1 = true ∧ Record.has r n.2 = true) := by
  have hused : n.2 ∈ names.filterMap (fun n => (find? r n.1 n.2).map Prod.fst) ↔
      Record.get? r n.1 = none ∧ Record.has r n.2 = true := by
    rw [mem_usedKeys]
    constructor
    · rintro ⟨m, hm, ⟨he, -⟩ | ⟨he, hr⟩⟩
      · obtain rfl := own m hm (Or.inl he)
        exact absurd he hne
      · obtain rfl := own m hm (Or.inr he)
        exact hr
    · exact fun h => ⟨n, hn, Or.inr ⟨rfl, h⟩⟩
  rw [get?_others]
  simp only [hused, Record.has]
  cases Record.get? r n.1 <;> cases Record.get? r n.2 <;> simp

end Check

end Switchboard
