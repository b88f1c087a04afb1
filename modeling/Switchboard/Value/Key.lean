import Switchboard.Value.Number

/-!
# Values as keys

A value without parts can stand as the key of a table. Numbers that are equal are the same key,
and the booleans count as the numbers one and zero. A table whose keys are all texts is a record.
-/
namespace Switchboard.Value

def isKey : Value → Bool
  | .list _ | .record _ | .table _ => false
  | _ => true

def sameKey (v w : Value) : Bool :=
  match v.asNumber, w.asNumber with
  | .octets a, .octets b => a == b
  | .stamp a, .stamp b => a == b
  | a, b => strictEq a b

/-- Puts a value under a key, in the place of one that is there. -/
def putEntry (key value : Value) : List (Value × Value) → List (Value × Value)
  | [] => [(key, value)]
  | (k, v) :: es => if k.sameKey key then (k, value) :: es else (k, v) :: putEntry key value es

/-- The fields of a table whose keys are all texts. -/
def recordOf? : List (Value × Value) → Option (Record Value)
  | [] => some []
  | (.text key, v) :: es => (recordOf? es).map ((key, v) :: ·)
  | _ :: _ => none

/-- The record or the table of some entries. -/
def ofEntries (es : List (Value × Value)) : Value :=
  match recordOf? es with
  | some fields => .record fields
  | none => .table es

@[simp] theorem sameKey_text (s t : String) : sameKey (.text s) (.text t) = (s == t) := rfl

@[simp] theorem sameKey_int (m n : Int) : sameKey (.int m) (.int n) = (m == n) := rfl

@[simp] theorem isKey_text (s : String) : isKey (.text s) = true := rfl

theorem sameKey_text_eq (k : Value) (key : String) : k.sameKey (.text key) = k.isText key := by
  cases k <;> rfl

theorem eq_text_of_isText {k : Value} {key : String} (h : k.isText key = true) :
    k = .text key := by
  cases k with
  | text s => exact congrArg text (beq_iff_eq.mp h)
  | _ => cases h

theorem isText_of_ne {k : Value} {key other : String} (h : k.isText key = true)
    (hne : other ≠ key) : k.isText other = false := by
  rw [eq_text_of_isText h]
  exact beq_eq_false_iff_ne.mpr (Ne.symm hne)

/-- A value that was put under a text is found there. -/
theorem find?_putEntry_self (key : String) (value : Value) (es : List (Value × Value)) :
    ((putEntry (.text key) value es).find? fun e => e.1.isText key).map Prod.snd = some value := by
  induction es with
  | nil => simp [putEntry, isText]
  | cons e es ih =>
    obtain ⟨k, v⟩ := e
    rw [putEntry, sameKey_text_eq]
    cases hk : k.isText key with
    | true => simp [hk]
    | false => simpa [hk] using ih

theorem find?_putEntry_of_ne {key other : String} (hne : other ≠ key) (value : Value)
    (es : List (Value × Value)) :
    ((putEntry (.text key) value es).find? fun e => e.1.isText other).map Prod.snd =
      (es.find? fun e => e.1.isText other).map Prod.snd := by
  induction es with
  | nil => simp [putEntry, isText, Ne.symm hne]
  | cons e es ih =>
    obtain ⟨k, v⟩ := e
    rw [putEntry, sameKey_text_eq]
    cases hk : k.isText key with
    | true => simp [isText_of_ne hk hne]
    | false =>
      cases ho : k.isText other with
      | true => simp [ho]
      | false => simpa [ho] using ih

theorem putEntry_putEntry (key : String) (v w : Value) (es : List (Value × Value)) :
    putEntry (.text key) w (putEntry (.text key) v es) = putEntry (.text key) w es := by
  induction es with
  | nil => simp [putEntry]
  | cons e es ih =>
    obtain ⟨k, u⟩ := e
    cases hk : k.sameKey (.text key) with
    | true => simp [putEntry, hk]
    | false => simp [putEntry, hk, ih]

end Switchboard.Value
