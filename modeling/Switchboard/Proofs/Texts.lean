import Switchboard.Check
import Switchboard.Proofs.Levels
import Switchboard.Proofs.Numerals
import Mathlib.Order.MinMax

/-!
# The texts of values

The display of a value is wanting where a list in it shows an integer past the digit limit or has
too many levels, and its literal where any part of it is such an integer. A value that counts as
given has a plain text that is not empty.
-/
namespace Switchboard

/-- The fault is one of these, or else that of a value that is nested too deep. -/
def OrTooDeep (P : Fault → Prop) (deep : Prop) (f : Fault) : Prop :=
  P f ∨ f = .nestedTooDeep ∧ deep

namespace FaultsOnly

variable {α : Type} {e : Except Fault α} {P Q : Fault → Prop} {deep deeper : Prop}

theorem deepen (he : FaultsOnly (OrTooDeep P deep) e) (h : deep → deeper) :
    FaultsOnly (OrTooDeep P deeper) e :=
  he.mono fun _ => Or.imp_right (And.imp_right h)

theorem widen (he : FaultsOnly (OrTooDeep P deep) e) (h : ∀ f, P f → Q f) :
    FaultsOnly (OrTooDeep Q deep) e :=
  he.mono fun f => Or.imp_left (h f)

end FaultsOnly

namespace Value

/-- The display of the value shows an integer past the digit limit. Only lists are displayed part
by part. -/
inductive ShowsOverlong : Value → Prop
  | int {n : Int} (h : IsOverlong n) : ShowsOverlong (.int n)
  | list {items : List Value} {v : Value} (hv : v ∈ items) (h : ShowsOverlong v) :
    ShowsOverlong (.list items)

/-- Some part of the value is an integer past the digit limit. -/
inductive HoldsOverlong : Value → Prop
  | int {n : Int} (h : IsOverlong n) : HoldsOverlong (.int n)
  | list {items : List Value} {v : Value} (hv : v ∈ items) (h : HoldsOverlong v) :
    HoldsOverlong (.list items)
  | record {fields : List (String × Value)} {f : String × Value} (hf : f ∈ fields)
    (h : HoldsOverlong f.2) : HoldsOverlong (.record fields)
  | key {entries : List (Value × Value)} {e : Value × Value} (he : e ∈ entries)
    (h : HoldsOverlong e.1) : HoldsOverlong (.table entries)
  | entry {entries : List (Value × Value)} {e : Value × Value} (he : e ∈ entries)
    (h : HoldsOverlong e.2) : HoldsOverlong (.table entries)

/-- Null or the absent value. -/
def isMissing : Value → Bool
  | .null | .absent => true
  | _ => false

/-- A value without parts other than an integer. -/
def IsPlainLeaf : Value → Prop
  | .int _ | .list _ | .record _ | .table _ => False
  | _ => True

theorem IsPlainLeaf.not_showsOverlong {v : Value} (h : v.IsPlainLeaf) : ¬ v.ShowsOverlong := by
  rintro ⟨⟩ <;> exact h

theorem IsPlainLeaf.not_holdsOverlong {v : Value} (h : v.IsPlainLeaf) : ¬ v.HoldsOverlong := by
  rintro ⟨⟩ <;> exact h

@[simp] theorem showsOverlong_int {n : Int} : ShowsOverlong (.int n) ↔ IsOverlong n :=
  ⟨fun h => by cases h; assumption, .int⟩

@[simp] theorem showsOverlong_list {items : List Value} :
    ShowsOverlong (.list items) ↔ ∃ v ∈ items, ShowsOverlong v :=
  ⟨fun h => by cases h with | list hv h => exact ⟨_, hv, h⟩, fun ⟨_, hv, h⟩ => .list hv h⟩

@[simp] theorem holdsOverlong_int {n : Int} : HoldsOverlong (.int n) ↔ IsOverlong n :=
  ⟨fun h => by cases h; assumption, .int⟩

@[simp] theorem holdsOverlong_list {items : List Value} :
    HoldsOverlong (.list items) ↔ ∃ v ∈ items, HoldsOverlong v :=
  ⟨fun h => by cases h with | list hv h => exact ⟨_, hv, h⟩, fun ⟨_, hv, h⟩ => .list hv h⟩

@[simp] theorem holdsOverlong_record {fields : List (String × Value)} :
    HoldsOverlong (.record fields) ↔ ∃ f ∈ fields, HoldsOverlong f.2 :=
  ⟨fun h => by cases h with | record hf h => exact ⟨_, hf, h⟩, fun ⟨_, hf, h⟩ => .record hf h⟩

@[simp] theorem holdsOverlong_table {entries : List (Value × Value)} :
    HoldsOverlong (.table entries) ↔ ∃ e ∈ entries, HoldsOverlong e.1 ∨ HoldsOverlong e.2 := by
  constructor
  · intro h
    cases h with
    | key he h => exact ⟨_, he, Or.inl h⟩
    | entry he h => exact ⟨_, he, Or.inr h⟩
  · rintro ⟨e, he, h | h⟩
    · exact .key he h
    · exact .entry he h

mutual

/-- How many levels of a value are displayed. Only lists are displayed part by part, and their null
and absent items not at all. -/
def shownLevels : Value → Nat
  | .list items => shownLevelsOfItems items + 1
  | _ => 1

def shownLevelsOfItems : List Value → Nat
  | [] => 0
  | .null :: items => shownLevelsOfItems items
  | .absent :: items => shownLevelsOfItems items
  | item :: items => max (shownLevels item) (shownLevelsOfItems items)

end

theorem shownLevels_pos (v : Value) : 0 < v.shownLevels := by
  cases v <;> simp [shownLevels]

theorem shownLevels_nestedLists (n : Nat) : (nestedLists n).shownLevels = n + 1 := by
  induction n with
  | zero => rfl
  | succ n ih =>
    have hitems : shownLevelsOfItems [nestedLists n] = (nestedLists n).shownLevels := by
      cases n <;> exact Nat.max_zero _
    rw [nestedLists, shownLevels, hitems, ih]

/-- The display of the value has more levels than can be gone through. -/
def ShowsTooDeep (v : Value) : Prop := levelLimit 3 < v.shownLevels

instance (v : Value) : Decidable v.ShowsTooDeep := inferInstanceAs (Decidable (_ < _))

/-- The value has no display. -/
def LacksDisplay (v : Value) : Prop := v.ShowsOverlong ∨ v.ShowsTooDeep

theorem ShowsTooDeep.exists_list {v : Value} (h : v.ShowsTooDeep) : ∃ items, v = .list items := by
  cases v with
  | list items => exact ⟨items, rfl⟩
  | _ => simp [ShowsTooDeep, shownLevels] at h

theorem not_showsTooDeep {v : Value} (h : ∀ items, v ≠ .list items) : ¬ v.ShowsTooDeep := by
  intro hdeep
  obtain ⟨items, hitems⟩ := hdeep.exists_list
  exact h items hitems

theorem IsPlainLeaf.not_lacksDisplay {v : Value} (h : v.IsPlainLeaf) : ¬ v.LacksDisplay := by
  refine not_or.mpr ⟨h.not_showsOverlong, not_showsTooDeep ?_⟩
  rintro items rfl
  exact h

/-- A value without parts has a display where there is room for it. -/
theorem IsPlainLeaf.exists_displayWithin {v : Value} (h : v.IsPlainLeaf) (room : Nat) :
    ∃ s, displayWithin (room + 1) v = .ok s := by
  cases v with
  | double x =>
    rw [← not_faults_iff, displayWithin]
    split
    · rename_i n hn
      rw [faults_intText]
      exact Double.not_isOverlong_of_toInt? hn
    · exact not_faults_ok _
  | int _ | list _ | record _ | table _ => exact h.elim
  | _ => simp [displayWithin]

theorem IsPlainLeaf.faults_displayWithin {v : Value} (h : v.IsPlainLeaf) (room : Nat) :
    Faults (displayWithin (room + 1) v) ↔ v.ShowsOverlong ∨ room + 1 < v.shownLevels := by
  have hlevels : v.shownLevels = 1 := by
    cases v with
    | list _ => exact h.elim
    | _ => rfl
  refine iff_of_false (not_faults_iff.mpr (h.exists_displayWithin room)) ?_
  rw [hlevels]
  exact not_or.mpr ⟨h.not_showsOverlong, by omega⟩

/-- Null and absent items have an empty display in a list. -/
theorem faults_displayItems_cons (room : Nat) (v : Value) (items : List Value) :
    Faults (displayItems room (v :: items)) ↔
      (v.isMissing = false ∧ Faults (displayWithin room v)) ∨ Faults (displayItems room items) := by
  cases v
  case absent | null =>
    simp only [displayItems, isMissing, faults_bind_pure, Bool.true_eq_false, false_and, false_or]
  all_goals simp only [displayItems, isMissing, faults_bind_bind_pure, true_and]

theorem lt_shownLevelsOfItems_cons (room : Nat) (v : Value) (items : List Value) :
    room < shownLevelsOfItems (v :: items) ↔
      (v.isMissing = false ∧ room < v.shownLevels) ∨ room < shownLevelsOfItems items := by
  cases v <;> simp [shownLevelsOfItems, isMissing]

mutual

/-- A value is displayed with room for some levels unless it shows more, or an integer past the
digit limit. -/
theorem faults_displayWithin : ∀ (room : Nat) (v : Value),
    Faults (displayWithin room v) ↔ v.ShowsOverlong ∨ room < v.shownLevels
  | 0, v => by simp [displayWithin, v.shownLevels_pos]
  | room + 1, .int n => by simp [displayWithin, faults_intText, shownLevels]
  | room + 1, .list items => by
    rw [displayWithin, faults_bind_pure, faults_displayItems room items, showsOverlong_list,
      shownLevels, Nat.add_lt_add_iff_right]
  | room + 1, .record fields => by
    simp [displayWithin, shownLevels, show ¬ ShowsOverlong (.record fields) from nofun]
  | room + 1, .table entries => by
    simp [displayWithin, shownLevels, show ¬ ShowsOverlong (.table entries) from nofun]
  | room + 1, .absent => IsPlainLeaf.faults_displayWithin (v := .absent) trivial room
  | room + 1, .null => IsPlainLeaf.faults_displayWithin (v := .null) trivial room
  | room + 1, .bool b => IsPlainLeaf.faults_displayWithin (v := .bool b) trivial room
  | room + 1, .double x => IsPlainLeaf.faults_displayWithin (v := .double x) trivial room
  | room + 1, .text s => IsPlainLeaf.faults_displayWithin (v := .text s) trivial room
  | room + 1, .octets bytes => IsPlainLeaf.faults_displayWithin (v := .octets bytes) trivial room
  | room + 1, .stamp written => IsPlainLeaf.faults_displayWithin (v := .stamp written) trivial room

theorem faults_displayItems (room : Nat) : ∀ items : List Value,
    Faults (displayItems room items) ↔
      (∃ v ∈ items, v.ShowsOverlong) ∨ room < shownLevelsOfItems items
  | [] => by simp [displayItems, shownLevelsOfItems]
  | v :: items => by
    have hmissing : v.ShowsOverlong → v.isMissing = false := by rintro ⟨⟩ <;> rfl
    rw [faults_displayItems_cons, lt_shownLevelsOfItems_cons, faults_displayWithin room v,
      faults_displayItems room items, and_or_left, and_iff_right_of_imp hmissing]
    simp only [List.mem_cons, exists_eq_or_imp]
    exact or_or_or_comm

end

theorem faults_display (v : Value) : Faults v.display ↔ v.LacksDisplay :=
  faults_displayWithin (levelLimit 3) v

theorem faultsOnly_displayItems_cons {P : Fault → Prop} {room : Nat} {v : Value}
    {items : List Value} (hv : FaultsOnly P (displayWithin room v))
    (hitems : FaultsOnly P (displayItems room items)) :
    FaultsOnly P (displayItems room (v :: items)) := by
  cases v
  case absent | null => exact hitems.bind_pure
  all_goals exact hv.bind fun _ => hitems.bind_pure

mutual

/-- A value that shows no integer past the digit limit can only be nested too deep. -/
theorem faultsOnly_displayWithin : ∀ (room : Nat) (v : Value), ¬ v.ShowsOverlong →
    FaultsOnly (· = .nestedTooDeep) (displayWithin room v)
  | 0, v, _ => by simp [displayWithin]
  | room + 1, .int n, h => by
    obtain ⟨s, hs⟩ := not_faults_iff.mp (mt (faults_intText n).mp (mt showsOverlong_int.mpr h))
    simp [displayWithin, hs]
  | room + 1, .double x, _ => by
    obtain ⟨s, hs⟩ := IsPlainLeaf.exists_displayWithin (v := .double x) trivial room
    simp [hs]
  | room + 1, .list items, h => by
    rw [displayWithin]
    exact (faultsOnly_displayItems room items (mt showsOverlong_list.mpr h)).bind_pure
  | room + 1, .absent, _ | room + 1, .null, _ | room + 1, .bool _, _ | room + 1, .text _, _
  | room + 1, .record _, _ | room + 1, .table _, _ | room + 1, .octets _, _
  | room + 1, .stamp _, _ => by simp [displayWithin]

theorem faultsOnly_displayItems (room : Nat) : ∀ items : List Value,
    (¬ ∃ v ∈ items, v.ShowsOverlong) →
      FaultsOnly (· = .nestedTooDeep) (displayItems room items)
  | [], _ => by simp [displayItems]
  | v :: items, h => by
    simp only [List.mem_cons, exists_eq_or_imp, not_or] at h
    exact faultsOnly_displayItems_cons (faultsOnly_displayWithin room v h.1)
      (faultsOnly_displayItems room items h.2)

end

/-- The value has no literal: some part of it is an integer past the digit limit, or it has more
levels than can be gone through. -/
def LacksLiteral (v : Value) : Prop := v.HoldsOverlong ∨ levelLimit 1 < v.levels

theorem IsPlainLeaf.levels_eq {v : Value} (h : v.IsPlainLeaf) : v.levels = 1 := by
  cases v with
  | list _ | record _ | table _ => exact h.elim
  | _ => rfl

theorem IsPlainLeaf.not_lacksLiteral {v : Value} (h : v.IsPlainLeaf) : ¬ v.LacksLiteral := by
  rw [LacksLiteral, h.levels_eq]
  exact not_or.mpr ⟨h.not_holdsOverlong, by decide⟩

theorem IsPlainLeaf.faults_literalWithin {v : Value} (h : v.IsPlainLeaf) (room : Nat) :
    Faults (literalWithin (room + 1) v) ↔ v.HoldsOverlong ∨ room + 1 < v.levels := by
  have hwritten : ¬ Faults (literalWithin (room + 1) v) := by
    cases v with
    | int _ | list _ | record _ | table _ => exact h.elim
    | _ => simp [literalWithin]
  rw [h.levels_eq]
  exact iff_of_false hwritten (not_or.mpr ⟨h.not_holdsOverlong, by omega⟩)

mutual

/-- A literal is written with room for some levels unless it has more, or an integer past the digit
limit. -/
theorem faults_literalWithin : ∀ (room : Nat) (v : Value),
    Faults (literalWithin room v) ↔ v.HoldsOverlong ∨ room < v.levels
  | 0, v => by simp [literalWithin, v.levels_pos]
  | room + 1, .int n => by simp [literalWithin, faults_intText, levels]
  | room + 1, .list items => by
    rw [literalWithin, faults_bind_pure, faults_literalItems room items, holdsOverlong_list, levels,
      Nat.add_lt_add_iff_right]
  | room + 1, .record fields => by
    rw [literalWithin, faults_bind_pure, faults_literalFields room fields, holdsOverlong_record,
      levels, Nat.add_lt_add_iff_right]
  | room + 1, .table entries => by
    rw [literalWithin, faults_bind_pure, faults_literalEntries room entries, holdsOverlong_table,
      levels, Nat.add_lt_add_iff_right]
  | room + 1, .absent => IsPlainLeaf.faults_literalWithin (v := .absent) trivial room
  | room + 1, .null => IsPlainLeaf.faults_literalWithin (v := .null) trivial room
  | room + 1, .bool b => IsPlainLeaf.faults_literalWithin (v := .bool b) trivial room
  | room + 1, .double x => IsPlainLeaf.faults_literalWithin (v := .double x) trivial room
  | room + 1, .text s => IsPlainLeaf.faults_literalWithin (v := .text s) trivial room
  | room + 1, .octets bytes => IsPlainLeaf.faults_literalWithin (v := .octets bytes) trivial room
  | room + 1, .stamp written => IsPlainLeaf.faults_literalWithin (v := .stamp written) trivial room

theorem faults_literalItems (room : Nat) : ∀ items : List Value,
    Faults (literalItems room items) ↔
      (∃ v ∈ items, v.HoldsOverlong) ∨ room < levelsOfItems items
  | [] => by simp [literalItems, levelsOfItems]
  | v :: items => by
    rw [literalItems, faults_bind_bind_pure, faults_literalWithin room v,
      faults_literalItems room items, levelsOfItems, lt_max_iff]
    simp only [List.mem_cons, exists_eq_or_imp]
    exact or_or_or_comm

theorem faults_literalFields (room : Nat) : ∀ fields : List (String × Value),
    Faults (literalFields room fields) ↔
      (∃ f ∈ fields, f.2.HoldsOverlong) ∨ room < levelsOfFields fields
  | [] => by simp [literalFields, levelsOfFields]
  | (key, v) :: fields => by
    rw [literalFields, faults_bind_bind_pure, faults_literalWithin room v,
      faults_literalFields room fields, levelsOfFields, lt_max_iff]
    simp only [List.mem_cons, exists_eq_or_imp]
    exact or_or_or_comm

theorem faults_literalEntries (room : Nat) : ∀ entries : List (Value × Value),
    Faults (literalEntries room entries) ↔
      (∃ e ∈ entries, e.1.HoldsOverlong ∨ e.2.HoldsOverlong) ∨ room < levelsOfEntries entries
  | [] => by simp [literalEntries, levelsOfEntries]
  | (k, v) :: entries => by
    have hk := faults_literalWithin room k
    have hv := faults_literalWithin room v
    have hrest := faults_literalEntries room entries
    have hpair : Faults (literalEntries room ((k, v) :: entries)) ↔
        (Faults (literalWithin room k) ∨ Faults (literalWithin room v)) ∨
          Faults (literalEntries room entries) := by
      rw [literalEntries, faults_bind, or_assoc]
      simp only [faults_bind_bind_pure]
      cases literalWithin room k <;> simp
    rw [hpair, hk, hv, hrest, levelsOfEntries, lt_max_iff, lt_max_iff]
    simp only [List.mem_cons, exists_eq_or_imp]
    rw [or_or_or_comm (a := k.HoldsOverlong)]
    exact or_or_or_comm

end

theorem faults_literal (v : Value) : Faults v.literal ↔ v.LacksLiteral :=
  faults_literalWithin (levelLimit 1) v

theorem faults_plain (v : Value) : Faults v.plain ↔ v.LacksLiteral := by
  cases v with
  | text s => simp [@IsPlainLeaf.not_lacksLiteral (.text s) trivial]
  | _ => exact faults_literal _

mutual

/-- A value without a literal holds an integer past the digit limit, or it is nested too deep. -/
theorem faultsOnly_literalWithin : ∀ (room : Nat) (v : Value),
    FaultsOnly (OrTooDeep (· = .numeralTooLong) (room < v.levels)) (literalWithin room v)
  | 0, v => by
    rw [literalWithin, FaultsOnly.error_iff]
    exact Or.inr ⟨rfl, v.levels_pos⟩
  | room + 1, .int n => by
    rw [literalWithin]
    exact faultsOnly_intText (Or.inl rfl) n
  | room + 1, .list items => by
    rw [literalWithin]
    exact ((faultsOnly_literalItems room items).deepen Nat.succ_lt_succ).bind_pure
  | room + 1, .record fields => by
    rw [literalWithin]
    exact ((faultsOnly_literalFields room fields).deepen Nat.succ_lt_succ).bind_pure
  | room + 1, .table entries => by
    rw [literalWithin]
    exact ((faultsOnly_literalEntries room entries).deepen Nat.succ_lt_succ).bind_pure
  | room + 1, .absent | room + 1, .null | room + 1, .bool _ | room + 1, .double _
  | room + 1, .text _ | room + 1, .octets _ | room + 1, .stamp _ => by simp [literalWithin]

theorem faultsOnly_literalItems (room : Nat) : ∀ items : List Value,
    FaultsOnly (OrTooDeep (· = .numeralTooLong) (room < levelsOfItems items))
      (literalItems room items)
  | [] => by simp [literalItems]
  | v :: items => by
    rw [literalItems, levelsOfItems]
    exact ((faultsOnly_literalWithin room v).deepen lt_max_of_lt_left).bind fun _ =>
      ((faultsOnly_literalItems room items).deepen lt_max_of_lt_right).bind_pure

theorem faultsOnly_literalFields (room : Nat) : ∀ fields : List (String × Value),
    FaultsOnly (OrTooDeep (· = .numeralTooLong) (room < levelsOfFields fields))
      (literalFields room fields)
  | [] => by simp [literalFields]
  | (key, v) :: fields => by
    rw [literalFields, levelsOfFields]
    exact ((faultsOnly_literalWithin room v).deepen lt_max_of_lt_left).bind fun _ =>
      ((faultsOnly_literalFields room fields).deepen lt_max_of_lt_right).bind_pure

theorem faultsOnly_literalEntries (room : Nat) : ∀ entries : List (Value × Value),
    FaultsOnly (OrTooDeep (· = .numeralTooLong) (room < levelsOfEntries entries))
      (literalEntries room entries)
  | [] => by simp [literalEntries]
  | (key, v) :: entries => by
    rw [literalEntries]
    exact ((faultsOnly_literalWithin room key).deepen
      fun h => lt_levelsOfEntries_cons.mpr (Or.inl h)).bind fun _ =>
        ((faultsOnly_literalWithin room v).deepen
          fun h => lt_levelsOfEntries_cons.mpr (Or.inr (Or.inl h))).bind fun _ =>
            ((faultsOnly_literalEntries room entries).deepen
              fun h => lt_levelsOfEntries_cons.mpr (Or.inr (Or.inr h))).bind_pure

end

theorem faultsOnly_literal (v : Value) :
    FaultsOnly (OrTooDeep (· = .numeralTooLong) (levelLimit 1 < v.levels)) v.literal :=
  faultsOnly_literalWithin (levelLimit 1) v

theorem faultsOnly_plain (v : Value) :
    FaultsOnly (OrTooDeep (· = .numeralTooLong) (levelLimit 1 < v.levels)) v.plain := by
  cases v with
  | text s => exact .ok s
  | _ => exact faultsOnly_literal _

/-- The value has no leading number: it is an integer beyond the doubles, or it has no display. -/
def LacksNumber : Value → Prop
  | .int n => IsPastDoubles n
  | v => v.LacksDisplay

theorem faults_leadingNumber (v : Value) : Faults v.leadingNumber ↔ v.LacksNumber := by
  cases v with
  | int n => exact Double.faults_ofInt n
  | double x => simp [leadingNumber, LacksNumber, @IsPlainLeaf.not_lacksDisplay (.double x) trivial]
  | _ => simp only [leadingNumber, LacksNumber, faults_bind_pure, faults_display]

theorem faults_leadingNumberOrZero (v : Value) : Faults v.leadingNumberOrZero ↔ v.LacksNumber := by
  rw [leadingNumberOrZero, faults_bind_pure, faults_leadingNumber]

/-- Every literal but that of a stamp of nothing has a character. -/
theorem literal_ne_empty {v : Value} {s : String} (h : v.literal = .ok s) (hv : v ≠ .stamp "") :
    s ≠ "" := by
  rw [literal, levelLimit_one] at h
  cases v with
  | int n => exact intText_ne_empty (by simpa [literalWithin] using h)
  | stamp written =>
    simp only [literalWithin, Except.ok.injEq] at h
    rintro rfl
    exact hv (by rw [h])
  | double x =>
    simp only [literalWithin, Except.ok.injEq] at h
    rw [← h]
    exact x.text_ne_empty (by decide) (by decide)
  | bool b =>
    simp only [literalWithin, Except.ok.injEq] at h
    cases b <;> simp [← h]
  | text t =>
    simp only [literalWithin, Except.ok.injEq] at h
    simp [← h, Text.quoted]
  | octets bytes =>
    simp only [literalWithin, Except.ok.injEq] at h
    simp [← h, Text.quotedOctets]
  | absent | null =>
    simp only [literalWithin, Except.ok.injEq] at h
    simp [← h]
  | list items =>
    rw [literalWithin] at h
    obtain ⟨texts, -, hs⟩ := bind_eq_ok_iff.mp h
    obtain rfl := Except.ok.inj hs
    simp
  | record fields =>
    rw [literalWithin] at h
    obtain ⟨texts, -, hs⟩ := bind_eq_ok_iff.mp h
    obtain rfl := Except.ok.inj hs
    simp
  | table entries =>
    rw [literalWithin] at h
    obtain ⟨texts, -, hs⟩ := bind_eq_ok_iff.mp h
    obtain rfl := Except.ok.inj hs
    simp

end Value

end Switchboard

namespace Switchboard.Check

theorem textOfOctets_ne_empty {reason : Reason} {bytes : List UInt8} {s : String}
    (h : textOfOctets reason bytes = .ok s) (hb : bytes ≠ []) : s ≠ "" := by
  unfold textOfOctets at h
  split at h
  · rename_i t ht
    simp only [Check.ok.injEq] at h
    subst h
    unfold String.fromUTF8? at ht
    split at ht
    · simp only [Option.some.injEq] at ht
      rintro rfl
      have hbytes : (⟨bytes.toArray⟩ : ByteArray) = ⟨#[]⟩ := congrArg String.toByteArray ht
      simp only [ByteArray.mk.injEq] at hbytes
      exact hb (by simpa using congrArg Array.toList hbytes)
    · cases ht
  · cases h

/-- The text of a value that is given is not empty. -/
theorem text_ne_empty {v : Value} {s : String} (h : text v = .ok s) (hv : v.given = true) :
    s ≠ "" := by
  cases v with
  | text t =>
    simp only [text, Check.ok.injEq] at h
    simpa [Value.given, ← h] using hv
  | octets bytes => exact textOfOctets_ne_empty h (by simpa [Value.given] using hv)
  | _ => cases h

theorem plainText_ne_empty {v : Value} {s : String} (h : plainText v = .ok s)
    (hv : v.given = true) : s ≠ "" := by
  unfold plainText at h
  split at h
  · rename_i t ht
    simp only [Check.ok.injEq] at h
    subst h
    cases v with
    | text u =>
      simp only [Value.plain_text, Except.ok.injEq] at ht
      simpa [Value.given, ← ht] using hv
    | stamp written =>
      refine Value.literal_ne_empty ht fun he => ?_
      simp [Value.given, Value.stamp.inj he] at hv
    | _ => exact Value.literal_ne_empty ht (by simp)
  · split at h <;> cases h

end Switchboard.Check
