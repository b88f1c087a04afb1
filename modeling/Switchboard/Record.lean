/-!
# Ordered records

A record is a list of keys with their values. A key keeps the place where it was first put.
-/
namespace Switchboard

/-- Keys with their values, in the order in which the keys were first put. -/
abbrev Record (α : Type) := List (String × α)

namespace Record

variable {α : Type}

def get? (r : Record α) (key : String) : Option α := List.lookup key r

def has (r : Record α) (key : String) : Bool := (get? r key).isSome

/-- Replaces the value of a key where it stands, or adds the key at the end. -/
def put (key : String) (value : α) : Record α → Record α
  | [] => [(key, value)]
  | (k, v) :: r => if k = key then (key, value) :: r else (k, v) :: put key value r

def erase (r : Record α) (key : String) : Record α := r.filter fun p => p.1 != key

/-- Puts the fields of the second record one after the other into the first. -/
def merge (r s : Record α) : Record α := s.foldl (fun r p => put p.1 p.2 r) r

/-- The record that a list of keys and values builds: the last value of a key counts, and stands
where the key stood first. -/
def ofPairs (ps : List (String × α)) : Record α := merge [] ps

def keys (r : Record α) : List String := r.map Prod.fst

@[simp] theorem get?_nil (key : String) : get? ([] : Record α) key = none := rfl

theorem get?_cons (k key : String) (v : α) (r : Record α) :
    get? ((k, v) :: r) key = if key = k then some v else get? r key := by
  unfold get?
  rw [List.lookup_cons]
  by_cases h : key = k
  · simp [h]
  · simp [h, beq_eq_false_iff_ne.mpr h]

@[simp] theorem get?_put_self (key : String) (value : α) (r : Record α) :
    get? (put key value r) key = some value := by
  induction r with
  | nil => simp [put, get?_cons]
  | cons p r ih =>
    obtain ⟨k, v⟩ := p
    by_cases h : k = key
    · simp [put, h, get?_cons]
    · simp [put, h, get?_cons, ih, Ne.symm h]

theorem get?_put_of_ne {key other : String} (h : other ≠ key) (value : α) (r : Record α) :
    get? (put key value r) other = get? r other := by
  induction r with
  | nil => simp [put, get?_cons, h]
  | cons p r ih =>
    obtain ⟨k, v⟩ := p
    by_cases hk : k = key
    · subst hk
      simp [put, get?_cons, h]
    · simp [put, hk, get?_cons, ih]

theorem put_put (key : String) (v w : α) (r : Record α) :
    put key w (put key v r) = put key w r := by
  induction r with
  | nil => simp [put]
  | cons p r ih =>
    obtain ⟨k, u⟩ := p
    by_cases h : k = key <;> simp [put, h, ih]

end Record

end Switchboard
