import Switchboard.Osc.Argument
import Switchboard.Proofs.Texts

/-!
# Values without a JSON text

A value has a JSON text if its parts do, so an integer past the digit limit, a key of a table that
no text stands for, and too many levels leave a value without one. The first two are faults of the
input, as are all but the last for which a payload has no argument.
-/
namespace Switchboard

/-- The fault lies in a value that was given, or else it is that of a value that is nested too
deep. -/
abbrev OfInputOr : Prop → Fault → Prop := OrTooDeep (·.isOfInput = true)

namespace Json

variable {deep : Prop}

open Value (levelsOfItems levelsOfFields levelsOfEntries lt_levelsOfEntries_cons)

theorem ofInput_keyText (key : Value) : FaultsOnly (OfInputOr deep) (keyText key) := by
  cases key with
  | int n => exact faultsOnly_intText (Or.inl rfl) n
  | absent | list _ | record _ | table _ | octets _ | stamp _ =>
    rw [keyText, FaultsOnly.error_iff]
    · exact Or.inl rfl
    all_goals simp
  | _ => exact .ok _

mutual

theorem ofInput_writeWithin : ∀ (room : Nat) (v : Value),
    FaultsOnly (OfInputOr (room < v.levels)) (writeWithin room v)
  | 0, v => by
    rw [writeWithin, FaultsOnly.error_iff]
    exact Or.inr ⟨rfl, v.levels_pos⟩
  | room + 1, .int n => by
    rw [writeWithin]
    exact faultsOnly_intText (Or.inl rfl) n
  | room + 1, .list items => by
    rw [writeWithin]
    exact ((ofInput_writeItems room items).deepen Nat.succ_lt_succ).bind_pure
  | room + 1, .record fields => by
    rw [writeWithin]
    exact ((ofInput_writeFields room fields).deepen Nat.succ_lt_succ).bind_pure
  | room + 1, .table entries => by
    rw [writeWithin]
    exact ((ofInput_writeEntries room entries).deepen Nat.succ_lt_succ).bind_pure
  | room + 1, .absent | room + 1, .null | room + 1, .bool _ | room + 1, .double _
  | room + 1, .text _ | room + 1, .octets _ | room + 1, .stamp _ => by
    simp [writeWithin, Value.plain, Value.literal, Value.literalWithin]

theorem ofInput_writeItems (room : Nat) : ∀ items : List Value,
    FaultsOnly (OfInputOr (room < levelsOfItems items)) (writeItems room items)
  | [] => by simp [writeItems]
  | v :: items => by
    rw [writeItems, levelsOfItems]
    exact ((ofInput_writeWithin room v).deepen lt_max_of_lt_left).bind fun _ =>
      ((ofInput_writeItems room items).deepen lt_max_of_lt_right).bind_pure

theorem ofInput_writeFields (room : Nat) : ∀ fields : List (String × Value),
    FaultsOnly (OfInputOr (room < levelsOfFields fields)) (writeFields room fields)
  | [] => by simp [writeFields]
  | (key, v) :: fields => by
    rw [writeFields, levelsOfFields]
    exact ((ofInput_writeWithin room v).deepen lt_max_of_lt_left).bind fun _ =>
      ((ofInput_writeFields room fields).deepen lt_max_of_lt_right).bind_pure

theorem ofInput_writeEntries (room : Nat) : ∀ entries : List (Value × Value),
    FaultsOnly (OfInputOr (room < levelsOfEntries entries)) (writeEntries room entries)
  | [] => by simp [writeEntries]
  | (key, v) :: entries => by
    rw [writeEntries]
    exact (ofInput_keyText key).bind fun _ =>
      ((ofInput_writeWithin room v).deepen
        fun h => lt_levelsOfEntries_cons.mpr (Or.inr (Or.inl h))).bind fun _ =>
          ((ofInput_writeEntries room entries).deepen
            fun h => lt_levelsOfEntries_cons.mpr (Or.inr (Or.inr h))).bind_pure

end

variable {room : Nat}

@[simp] theorem faults_writeWithin_int {n : Int} :
    Faults (writeWithin (room + 1) (.int n)) ↔ IsOverlong n := by
  rw [writeWithin, faults_intText]

@[simp] theorem not_faults_writeWithin_null : ¬ Faults (writeWithin (room + 1) .null) := by
  simp [writeWithin]

@[simp] theorem not_faults_writeWithin_bool (b : Bool) :
    ¬ Faults (writeWithin (room + 1) (.bool b)) := by
  simp [writeWithin]

@[simp] theorem not_faults_writeWithin_text (s : String) :
    ¬ Faults (writeWithin (room + 1) (.text s)) := by
  simp [writeWithin]

@[simp] theorem faults_writeWithin_list {items : List Value} :
    Faults (writeWithin (room + 1) (.list items)) ↔
      ∃ v ∈ items, Faults (writeWithin room v) := by
  rw [writeWithin, faults_bind_pure]
  induction items with
  | nil => simp [writeItems]
  | cons v items ih =>
    rw [writeItems, faults_bind_bind_pure, ih]
    simp

@[simp] theorem faults_writeWithin_record {fields : List (String × Value)} :
    Faults (writeWithin (room + 1) (.record fields)) ↔
      ∃ f ∈ fields, Faults (writeWithin room f.2) := by
  rw [writeWithin, faults_bind_pure]
  induction fields with
  | nil => simp [writeFields]
  | cons f fields ih =>
    rw [writeFields, faults_bind_bind_pure, ih]
    simp

end Json

namespace Osc

theorem Format.ofInput_ofValue (v : Value) :
    FaultsOnly (OfInputOr (Value.levelLimit 1 < v.levels)) (Format.ofValue v) := by
  unfold Format.ofValue
  split
  · exact .ok _
  · have hliteral := (Value.faultsOnly_literal v).widen (Q := (·.isOfInput = true)) <| by
      rintro f rfl
      rfl
    exact hliteral.bind fun _ => FaultsOnly.error_iff.mpr (Or.inl rfl)

theorem ofInput_payloadText (payload : Value) :
    FaultsOnly (OfInputOr (Value.levelLimit 1 < payload.levels)) (payloadText payload) := by
  cases payload with
  | text s => exact .ok s
  | _ => exact Json.ofInput_writeWithin _ _

/-- A payload without an argument is at fault itself, or the name of the format is, unless one of
them is nested too deep. -/
theorem ofInput_argument (payload format : Value) :
    FaultsOnly (OfInputOr (Value.levelLimit 1 < payload.levels ∨
      Value.levelLimit 1 < format.levels)) (argument payload format) :=
  ((Format.ofInput_ofValue format).deepen Or.inr).bind fun _ =>
    ((ofInput_payloadText payload).deepen Or.inl).bind_pure

end Osc

end Switchboard
