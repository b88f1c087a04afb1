import Switchboard.Json.Reader
import Switchboard.Proofs.Forms
import Switchboard.Proofs.Texts

/-!
# What is read from JSON

A value that is read from JSON is null, a boolean, an integer within the digit limit, a double, a
text, or a list or a record of such values, and it has no more levels than the reader goes through.
-/
namespace Switchboard

/-- A value of the kinds that JSON has. -/
inductive Value.OfJson : Value → Prop
  | null : OfJson .null
  | bool (b : Bool) : OfJson (.bool b)
  | int {n : Int} (h : ¬ IsOverlong n) : OfJson (.int n)
  | double (x : Double) : OfJson (.double x)
  | text (s : String) : OfJson (.text s)
  | list {items : List Value} (h : ∀ v ∈ items, OfJson v) : OfJson (.list items)
  | record {fields : List (String × Value)} (h : ∀ f ∈ fields, OfJson f.2) :
    OfJson (.record fields)

theorem Value.OfJson.not_holdsOverlong {v : Value} (h : v.OfJson) : ¬ v.HoldsOverlong := by
  intro ho
  induction ho with
  | int hn =>
    cases h with
    | int h => exact h hn
  | list hv _ ih =>
    cases h with
    | list h => exact ih (h _ hv)
  | record hf _ ih =>
    cases h with
    | record h => exact ih (h _ hf)
  | key => cases h
  | entry => cases h

theorem Value.OfJson.lookup {fields : Record Value} (h : (Value.record fields).OfJson)
    (key : String) : (Value.lookup fields key).OfJson := by
  cases h with
  | record h =>
    unfold Value.lookup
    cases hg : Record.get? fields key with
    | none => exact .null
    | some v => exact h _ (Record.mem_of_get?_eq_some hg)

/-- The value is of the kinds that JSON has, and there is room for all its levels. -/
structure Value.IsJsonWithin (room : Nat) (v : Value) : Prop where
  kinds : v.OfJson
  levels_le : v.levels ≤ room

/-- A value as it is read from JSON. -/
def Value.IsJson (v : Value) : Prop := v.IsJsonWithin (levelLimit 1)

namespace Value.IsJsonWithin

variable {room : Nat}

theorem list {items : List Value} (h : ∀ v ∈ items, v.IsJsonWithin room) :
    (Value.list items).IsJsonWithin (room + 1) :=
  ⟨.list fun v hv => (h v hv).kinds, levels_list_le.mpr fun v hv => (h v hv).levels_le⟩

theorem record {fields : List (String × Value)} (h : ∀ f ∈ fields, f.2.IsJsonWithin room) :
    (Value.record fields).IsJsonWithin (room + 1) :=
  ⟨.record fun f hf => (h f hf).kinds, levels_record_le.mpr fun f hf => (h f hf).levels_le⟩

theorem of_list {items : List Value} (h : (Value.list items).IsJsonWithin (room + 1)) :
    ∀ v ∈ items, v.IsJsonWithin room := by
  obtain ⟨hkinds, hlevels⟩ := h
  cases hkinds with
  | list hitems => exact fun v hv => ⟨hitems v hv, levels_list_le.mp hlevels v hv⟩

theorem lookup {fields : Record Value} (h : (Value.record fields).IsJsonWithin (room + 2))
    (key : String) : (Value.lookup fields key).IsJsonWithin (room + 1) := by
  refine ⟨h.kinds.lookup key, ?_⟩
  unfold Value.lookup
  cases hg : Record.get? fields key with
  | none => exact Nat.succ_pos room
  | some v => exact levels_record_le.mp h.levels_le _ (Record.mem_of_get?_eq_some hg)

theorem mono {v : Value} {more : Nat} (h : v.IsJsonWithin room) (hle : room ≤ more) :
    v.IsJsonWithin more := ⟨h.kinds, h.levels_le.trans hle⟩

end Value.IsJsonWithin

namespace Value.IsJson

theorem lookup {fields : Record Value} (h : (Value.record fields).IsJson) (key : String) :
    (Value.lookup fields key).IsJson :=
  (@IsJsonWithin.lookup 983 fields h key).mono (by decide)

/-- A value from JSON has a plain text. -/
theorem not_lacksLiteral {v : Value} (h : v.IsJson) : ¬ v.LacksLiteral :=
  not_or.mpr ⟨h.kinds.not_holdsOverlong, Nat.not_lt.mpr h.levels_le⟩

end Value.IsJson

namespace Number

theorem decimalValue?_le (c : Char) : (Text.decimalValue? c).getD 0 ≤ 9 := by
  unfold Text.decimalValue?
  split
  · split
    · rename_i h
      have h9 : c.toNat ≤ 57 := h.2
      simp only [Option.getD_some]
      have h0 : '0'.toNat = 48 := rfl
      omega
    · simp
  · cases hz : Text.decimalZeros.find? fun z => z ≤ c.toNat && c.toNat ≤ z + 9 with
    | none => simp
    | some z =>
      have hc := List.find?_some hz
      simp only [Bool.and_eq_true, decide_eq_true_eq] at hc
      simp only [Option.map_some, Option.getD_some]
      omega

/-- A run of digits stands for a number with no more digits. -/
theorem digitsValue_lt (cs : List Char) : digitsValue cs < 10 ^ cs.length := by
  have hfold : ∀ (cs : List Char) (n : Nat),
      cs.foldl (fun n c => 10 * n + (Text.decimalValue? c).getD 0) n < (n + 1) * 10 ^ cs.length := by
    intro cs
    induction cs with
    | nil => simp
    | cons c cs ih =>
      intro n
      have hc := decimalValue?_le c
      calc cs.foldl (fun n c => 10 * n + (Text.decimalValue? c).getD 0)
            (10 * n + (Text.decimalValue? c).getD 0)
          < (10 * n + (Text.decimalValue? c).getD 0 + 1) * 10 ^ cs.length := ih _
        _ ≤ ((n + 1) * 10) * 10 ^ cs.length := Nat.mul_le_mul_right _ (by omega)
        _ = (n + 1) * 10 ^ (c :: cs).length := by
          rw [List.length_cons, Nat.pow_succ, Nat.mul_assoc, Nat.mul_comm 10]
  simpa [digitsValue] using hfold cs 0

theorem not_isOverlong_digitsValue {cs : List Char} (h : cs.length ≤ digitLimit)
    (negative : Bool) :
    ¬ IsOverlong (if negative then -(digitsValue cs : Int) else digitsValue cs) := by
  have hlt : digitsValue cs < 10 ^ digitLimit :=
    Nat.lt_of_lt_of_le (digitsValue_lt cs) (Nat.pow_le_pow_right (by decide) h)
  have habs : (if negative then -(digitsValue cs : Int) else digitsValue cs).natAbs =
      digitsValue cs := by
    cases negative <;> simp
  rw [IsOverlong, habs]
  exact Nat.not_le.mpr hlt

/-- An integer that is read from a text is within the digit limit. -/
theorem not_isOverlong_of_readInt? {cs : List Char} {n : Int} (h : readInt? cs = some n) :
    ¬ IsOverlong n := by
  unfold readInt? at h
  dsimp only at h
  split at h
  · split at h
    · rename_i hd
      simp only [Bool.and_eq_true, decide_eq_true_eq] at hd
      exact Option.some.inj h ▸ not_isOverlong_digitsValue hd.2 _
    · cases h
  · cases h

end Number

namespace Json

theorem found_eq_ok_iff {α : Type} {o : Option α} {a : α} : found o = .ok a ↔ o = some a := by
  cases o <;> simp [found]

theorem ofJson_of_readMagnitude? {negative : Bool} {cs r : List Char} {v : Value}
    (h : readMagnitude? negative cs = some (v, r)) : v.OfJson ∧ v.levels = 1 := by
  unfold readMagnitude? at h
  split at h
  · obtain ⟨rfl, -⟩ := Prod.mk.inj (Option.some.inj h)
    exact ⟨.double _, rfl⟩
  · obtain ⟨⟨whole, rest⟩, -, h⟩ := Option.bind_eq_some_iff.mp h
    dsimp only at h
    split at h
    · split at h
      · split at h
        · rename_i hl
          obtain ⟨rfl, -⟩ := Prod.mk.inj (Option.some.inj h)
          exact ⟨.int (Number.not_isOverlong_digitsValue hl _), rfl⟩
        · cases h
      · obtain ⟨rfl, -⟩ := Prod.mk.inj (Option.some.inj h)
        exact ⟨.double _, rfl⟩
    · obtain ⟨rfl, -⟩ := Prod.mk.inj (Option.some.inj h)
      exact ⟨.double _, rfl⟩

theorem ofJson_of_readNumber? {cs r : List Char} {v : Value} (h : readNumber? cs = some (v, r)) :
    v.OfJson ∧ v.levels = 1 := by
  unfold readNumber? at h
  split at h <;> exact ofJson_of_readMagnitude? h

theorem ofJson_of_readName? {cs r : List Char} {v : Value} (h : readName? cs = some (v, r)) :
    v.OfJson ∧ v.levels = 1 := by
  obtain ⟨⟨name, w⟩, hm, hw⟩ := List.exists_of_findSome?_eq_some h
  obtain ⟨rest, -, he⟩ := Option.map_eq_some_iff.mp hw
  obtain ⟨rfl, -⟩ := Prod.mk.inj he
  simp only [List.mem_cons, Prod.mk.injEq, List.not_mem_nil, or_false] at hm
  rcases hm with ⟨-, rfl⟩ | ⟨-, rfl⟩ | ⟨-, rfl⟩ | ⟨-, rfl⟩
  · exact ⟨.null, rfl⟩
  · exact ⟨.bool true, rfl⟩
  · exact ⟨.bool false, rfl⟩
  · exact ⟨.double .nan, rfl⟩

theorem isJsonWithin_of_leaf {v : Value} (h : v.OfJson) (hone : v.levels = 1) (room : Nat) :
    v.IsJsonWithin (room + 1) := ⟨h, by omega⟩

/-- Whatever the reader finds within its bounds is of the kinds of JSON, and no deeper than there
was room for. -/
theorem isJsonWithin_of_readWithin (n : Nat) :
    (∀ {room cs v r}, readValue n room cs = .ok (v, r) → v.IsJsonWithin room) ∧
      (∀ {room cs vs r}, readItems n room cs = .ok (vs, r) → ∀ v ∈ vs, v.IsJsonWithin room) ∧
      (∀ {room cs fs r}, readFields n room cs = .ok (fs, r) →
        ∀ f ∈ fs, f.2.IsJsonWithin room) := by
  induction n with
  | zero => exact ⟨nofun, nofun, nofun⟩
  | succ n ih =>
    obtain ⟨ihValue, ihItems, ihFields⟩ := ih
    refine ⟨?value, ?items, ?fields⟩
    case value =>
      intro room cs v r h
      cases room with
      | zero => cases h
      | succ room =>
        unfold readValue at h
        split at h
        · obtain ⟨⟨s, _⟩, -, he⟩ := bind_eq_ok_iff.mp h
          obtain ⟨rfl, -⟩ := Prod.mk.inj (Except.ok.inj he)
          exact isJsonWithin_of_leaf (.text s) rfl room
        · split at h
          · obtain ⟨rfl, -⟩ := Prod.mk.inj (Except.ok.inj h)
            exact .list nofun
          · obtain ⟨⟨items, _⟩, hi, he⟩ := bind_eq_ok_iff.mp h
            obtain ⟨rfl, -⟩ := Prod.mk.inj (Except.ok.inj he)
            exact .list (ihItems hi)
        · split at h
          · obtain ⟨rfl, -⟩ := Prod.mk.inj (Except.ok.inj h)
            exact .record nofun
          · obtain ⟨⟨fields, _⟩, hf, he⟩ := bind_eq_ok_iff.mp h
            obtain ⟨rfl, -⟩ := Prod.mk.inj (Except.ok.inj he)
            exact .record fun f hm => ihFields hf f (Record.mem_ofPairs hm)
        · have hleaf := found_eq_ok_iff.mp h
          rw [Option.or_eq_some_iff] at hleaf
          rcases hleaf with hname | ⟨-, hnumber⟩
          · exact isJsonWithin_of_leaf (ofJson_of_readName? hname).1
              (ofJson_of_readName? hname).2 room
          · exact isJsonWithin_of_leaf (ofJson_of_readNumber? hnumber).1
              (ofJson_of_readNumber? hnumber).2 room
    case items =>
      intro room cs vs r h
      unfold readItems at h
      obtain ⟨⟨v, rest⟩, hv, h⟩ := bind_eq_ok_iff.mp h
      dsimp only at h
      split at h
      · obtain ⟨⟨vs', _⟩, hvs, he⟩ := bind_eq_ok_iff.mp h
        obtain ⟨rfl, -⟩ := Prod.mk.inj (Except.ok.inj he)
        exact List.forall_mem_cons.mpr ⟨ihValue hv, ihItems hvs⟩
      · obtain ⟨rfl, -⟩ := Prod.mk.inj (Except.ok.inj h)
        exact List.forall_mem_singleton.mpr (ihValue hv)
      · cases h
    case fields =>
      intro room cs fs r h
      unfold readFields at h
      split at h
      · obtain ⟨⟨key, rest⟩, -, h⟩ := bind_eq_ok_iff.mp h
        dsimp only at h
        split at h
        · obtain ⟨⟨v, rest⟩, hv, h⟩ := bind_eq_ok_iff.mp h
          dsimp only at h
          split at h
          · obtain ⟨⟨fs', _⟩, hfs, he⟩ := bind_eq_ok_iff.mp h
            obtain ⟨rfl, -⟩ := Prod.mk.inj (Except.ok.inj he)
            exact List.forall_mem_cons.mpr ⟨ihValue hv, ihFields hfs⟩
          · obtain ⟨rfl, -⟩ := Prod.mk.inj (Except.ok.inj h)
            exact List.forall_mem_singleton.mpr (ihValue hv)
          · cases h
        · cases h
      · cases h

/-- A text is read as a value from JSON. -/
theorem isJson_of_read {s : String} {v : Value} (h : read s = .ok v) : v.IsJson := by
  unfold read at h
  obtain ⟨⟨v, rest⟩, hv, h⟩ := bind_eq_ok_iff.mp h
  dsimp only at h
  split at h
  · exact Except.ok.inj h ▸ (isJsonWithin_of_readWithin _).1 hv
  · cases h

end Json

end Switchboard
