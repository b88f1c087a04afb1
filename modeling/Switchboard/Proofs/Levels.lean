import Switchboard.Value.Nesting

/-!
# The levels of a value

A walk has room for a value if there is room for one level and for the parts of the value one level
deeper. So what bounds a walk is how many values stand within each other.
-/
namespace Switchboard.Value

mutual

/-- How many values stand within each other, the outermost being the value itself. -/
def levels : Value → Nat
  | .list items => levelsOfItems items + 1
  | .record fields => levelsOfFields fields + 1
  | .table entries => levelsOfEntries entries + 1
  | _ => 1

def levelsOfItems : List Value → Nat
  | [] => 0
  | v :: items => max v.levels (levelsOfItems items)

def levelsOfFields : List (String × Value) → Nat
  | [] => 0
  | (_, v) :: fields => max v.levels (levelsOfFields fields)

def levelsOfEntries : List (Value × Value) → Nat
  | [] => 0
  | (key, v) :: entries => max (max key.levels v.levels) (levelsOfEntries entries)

end

theorem levels_pos (v : Value) : 0 < v.levels := by
  cases v <;> simp [levels]

theorem levelsOfItems_le {room : Nat} {items : List Value} :
    levelsOfItems items ≤ room ↔ ∀ v ∈ items, v.levels ≤ room := by
  induction items with
  | nil => simp [levelsOfItems]
  | cons v items ih => rw [levelsOfItems, Nat.max_le, ih, List.forall_mem_cons]

theorem levelsOfFields_le {room : Nat} {fields : List (String × Value)} :
    levelsOfFields fields ≤ room ↔ ∀ f ∈ fields, f.2.levels ≤ room := by
  induction fields with
  | nil => simp [levelsOfFields]
  | cons f fields ih => rw [levelsOfFields, Nat.max_le, ih, List.forall_mem_cons]

theorem lt_levelsOfEntries_cons {room : Nat} {key v : Value} {entries : List (Value × Value)} :
    room < levelsOfEntries ((key, v) :: entries) ↔
      room < key.levels ∨ room < v.levels ∨ room < levelsOfEntries entries := by
  rw [levelsOfEntries]
  omega

theorem levels_list_le {room : Nat} {items : List Value} :
    (Value.list items).levels ≤ room + 1 ↔ ∀ v ∈ items, v.levels ≤ room := by
  rw [levels, Nat.add_le_add_iff_right, levelsOfItems_le]

theorem levels_record_le {room : Nat} {fields : List (String × Value)} :
    (Value.record fields).levels ≤ room + 1 ↔ ∀ f ∈ fields, f.2.levels ≤ room := by
  rw [levels, Nat.add_le_add_iff_right, levelsOfFields_le]

theorem lt_levels_list {room : Nat} {items : List Value} :
    room + 1 < (Value.list items).levels ↔ ∃ v ∈ items, room < v.levels := by
  simpa only [Nat.not_le, Classical.not_forall, exists_prop] using
    not_congr (@levels_list_le room items)

theorem lt_levels_record {room : Nat} {fields : List (String × Value)} :
    room + 1 < (Value.record fields).levels ↔ ∃ f ∈ fields, room < f.2.levels := by
  simpa only [Nat.not_le, Classical.not_forall, exists_prop] using
    not_congr (@levels_record_le room fields)

/-- Lists within each other, the innermost of them empty. -/
def nestedLists : Nat → Value
  | 0 => .list []
  | n + 1 => .list [nestedLists n]

end Switchboard.Value
